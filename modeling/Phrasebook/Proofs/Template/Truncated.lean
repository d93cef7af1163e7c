import Phrasebook.Proofs.Except
import Phrasebook.Proofs.Parser.RunsOut
import Phrasebook.Proofs.Template.Concat
import Phrasebook.Proofs.Template.Openers
/-!
# Truncated texts — an end that came too early can be put off

A text that fails at its end lacks nothing but more text: whatever is open there, a string, a number
too large for an integer, an argument, a call or a span, at whatever depth, can be closed so that
what has been read keeps its meaning (`Expression.exists_completion`).  The parsers say what they
were about to read, and the texts of the grammar what may stand there.
-/
namespace Phrasebook.Template

open Phrasebook.Parser

variable {s : List Char} {firm : Bool}

/-! ## Tokens -/

instance soft_positional : Soft positional := by
  unfold positional
  infer_instance

instance soft_numeral : Soft Numeral.parse := by
  unfold Numeral.parse
  infer_instance

instance soft_boolean : Soft boolean := by
  unfold boolean
  infer_instance

instance soft_stringChar : Soft stringChar := by
  unfold stringChar
  infer_instance

instance soft_blanks : Soft blanks := by
  unfold blanks
  infer_instance

instance soft_comma : Soft comma := by
  unfold comma
  infer_instance

theorem not_runsOut_blanks : ¬ RunsOut blanks firm s := by
  have hok : blanks s = .ok () (s.dropWhile Text.isBlank) := rfl
  exact not_runsOut_of_ok hok

theorem eq_nil_of_runsOut_name (h : RunsOut name firm s) : firm = false ∧ s = [] := by
  rcases runsOut_bind.1 h with h | ⟨c, mid, -, h⟩
  · exact runsOut_satisfy.1 h
  · exact absurd h (not_runsOut_of_ok rfl)

theorem blanks_of_runsOut_closeSpan (h : RunsOut closeSpan firm s) : Blanks s := by
  unfold closeSpan at h
  simp only [runsOut_bind, not_runsOut_blanks, runsOut_expecting, runsOut_char, not_runsOut_pure,
    blanks_eq_ok, false_or, and_false, exists_false, or_false] at h
  obtain ⟨_, mid, ⟨b, rfl, hb, -⟩, -, rfl⟩ := h
  rw [List.append_nil]
  exact hb

/-- A string that is not closed has been read up to the end. -/
theorem stringText_of_runsOut (h : RunsOut stringLiteral true s) :
    ∃ cs body, StringText cs body ∧ s = '"' :: body := by
  unfold stringLiteral at h
  simp only [runsOut_bind, runsOut_char, runsOut_commit, runsOut_expecting, not_runsOut_pure,
    char_eq_ok, Bool.true_eq_false, false_and, false_or, true_and, and_false, exists_false,
    or_false] at h
  obtain ⟨_, mid, ⟨-, rfl⟩, f, h | ⟨cs, rest, hmany, -, rfl⟩⟩ := h
  · exact absurd h not_runsOut_many_of_soft
  · obtain ⟨body, hbody, rfl⟩ := many_stringChar_sound hmany
    exact ⟨cs, body, hbody, by rw [List.append_nil]⟩

/-- A number that ends the parse is too large for an integer. -/
theorem numeral_of_runsOut (h : RunsOut number true s) :
    ∃ n : Numeral, n.WellFormed ∧ n.places = none ∧ s = n.text := by
  unfold number at h
  simp only [runsOut_bind, notNext_eq_ok] at h
  rcases h with hsign | ⟨n, mid, hn, hnext | ⟨_, _, ⟨-, rfl⟩, hvalue⟩⟩
  · exact absurd hsign not_runsOut_of_soft
  · exact absurd hnext not_runsOut_of_soft
  · obtain ⟨hwell, rfl⟩ := Numeral.parse_sound hn
    cases hp : n.places with
    | some ds =>
      rw [hp] at hvalue
      exact absurd hvalue not_runsOut_pure
    | none =>
      cases hk : n.toInt64? with
      | some k =>
        rw [hp, hk] at hvalue
        exact absurd hvalue not_runsOut_pure
      | none =>
        rw [hp, hk] at hvalue
        obtain ⟨-, rfl⟩ := runsOut_abort.1 hvalue
        exact ⟨n, hwell, hp, by rw [List.append_nil]⟩

/-- With places behind it, a number of any size is one. -/
theorem argText_places {n : Numeral} (hn : n.WellFormed) (hp : n.places = none) :
    ∃ arg, ArgText arg (n.text ++ ['.', '0']) := by
  have hzero : Digits ['0'] := ⟨List.cons_ne_nil _ _, List.forall_mem_singleton.2 rfl⟩
  have hwell : ({ n with places := some ['0'] } : Numeral).WellFormed := by
    refine ⟨hn.whole, ?_⟩
    rintro _ ⟨⟩
    exact hzero
  have htext : n.text ++ ['.', '0'] = ({ n with places := some ['0'] } : Numeral).text := by
    simp [Numeral.text, hp]
  rw [htext]
  exact ⟨_, .number hwell rfl⟩

/-! ## Calls -/

/-- Behind a name and a parenthesis, these characters make a call. -/
def ClosesCall (s : List Char) : Prop :=
  ∀ f g, IsName f → Blanks g → ∃ args, CallText g ⟨String.ofList f, args⟩ (f ++ (g ++ '(' :: s))

theorem closesCall_nullary {b : List Char} (hb : Blanks b) : ClosesCall (b ++ [')']) := by
  intro f g hf hg
  have htext := CallText.nullary hf hg hb
  exact ⟨[], by simpa using htext⟩

theorem closesCall_applied {b cs more b' : List Char} {arg : Arg} {args : List Arg} (hb : Blanks b)
    (hcs : ArgText arg cs) (hmore : MoreText args more) (hb' : Blanks b') :
    ClosesCall (b ++ cs ++ more ++ b' ++ [')']) := by
  intro f g hf hg
  have htext := CallText.applied hf hg hb hcs hmore hb'
  exact ⟨arg :: args, by simpa using htext⟩

/-- What is known of a parser of calls: it reads calls, and where it runs out of text, more text
makes a call.  A firm end is one behind the parenthesis. -/
structure Completes (call : Parser Call) : Prop where
  reads : ReadsCalls call
  exists_callText : ∀ {s firm}, RunsOut call firm s → ∃ r g c, CallText g c (s ++ r) ∧
    (firm = true → ∃ f tail, c.name = String.ofList f ∧ s = f ++ (g ++ '(' :: tail))

variable {call : Parser Call}

theorem exists_wrapped (hcall : Completes call) (h : RunsOut (wrappedCall call) true s) :
    ∃ r arg, ArgText arg (s ++ r) := by
  unfold wrappedCall at h
  simp only [runsOut_bind, not_runsOut_of_soft, runsOut_commit, not_runsOut_blanks,
    not_runsOut_pure, literal_eq_ok, blanks_eq_ok, false_or, true_and, and_false, exists_false,
    or_false] at h
  obtain ⟨_, _, rfl, f, _, mid, ⟨b, rfl, hb, -⟩, h | ⟨c, rest, hc, h⟩⟩ := h
  · obtain ⟨r, g, c, hcs, -⟩ := hcall.exists_callText h
    have htext := ArgText.wrapped hb hcs blanks_nil
    exact ⟨r ++ ['}'], _, by simpa [opener] using htext⟩
  · obtain ⟨g, cs, hcs, rfl⟩ := hcall.reads _ _ _ hc
    have htext := ArgText.wrapped hb hcs (blanks_of_runsOut_closeSpan h)
    exact ⟨['}'], _, by simpa [opener] using htext⟩

theorem exists_argText (hcall : Completes call) (h : RunsOut (argument call) true s) :
    ∃ r arg, ArgText arg (s ++ r) := by
  unfold argument at h
  simp only [runsOut_orElse, runsOut_bind, not_runsOut_pure, and_false, exists_false, or_false,
    true_and] at h
  rcases h with h | ⟨-, h | ⟨-, h | ⟨-, h | ⟨-, h | ⟨hbool, h⟩⟩⟩⟩⟩
  · exact exists_wrapped hcall h
  · obtain ⟨cs, body, hbody, rfl⟩ := stringText_of_runsOut h
    exact ⟨['"'], _, .str hbody⟩
  · exact absurd h not_runsOut_of_soft
  · obtain ⟨n, hn, hp, rfl⟩ := numeral_of_runsOut h
    exact ⟨_, argText_places hn hp⟩
  · exact absurd h not_runsOut_of_soft
  · obtain ⟨r, g, c, hcs, hfront⟩ := hcall.exists_callText h
    obtain ⟨f, tail, hname, rfl⟩ := hfront rfl
    refine ⟨r, _, .bare hcs ?_⟩
    by_cases hg : g = []
    · exact .inl hg
    · -- a truth value in front of blanks would have been read in place of the call
      refine .inr fun htruth => ?_
      rw [hname, String.toList_ofList] at htruth
      obtain ⟨b, rfl⟩ := htruth
      have hgap : Blanks g := by
        obtain ⟨_, _, -, -, hgap, -⟩ := hcs.split
        exact hgap
      exact hbool.ne_ok _ _ (bind_of_ok (boolean_blanks hgap hg _) _)

theorem exists_moreText (hcall : Completes call)
    (h : RunsOut (many (do let _ ← comma; argument call)) firm s) :
    ∃ r args, MoreText args (s ++ r) := by
  have := hcall.reads.shrinks
  refine runsOut_many_rec (P := fun s => ∃ r args, MoreText args (s ++ r)) ?_ ?_ h
  · intro s hlast
    rcases runsOut_bind.1 hlast with hcomma | ⟨_, mid, hcomma, harg⟩
    · exact absurd hcomma not_runsOut_of_soft
    · obtain ⟨b, b', hb, hb', rfl, -⟩ := comma_eq_ok.1 hcomma
      obtain ⟨r, arg, hcs⟩ := exists_argText hcall harg
      have htext := MoreText.cons hb hb' hcs .nil
      exact ⟨r, [arg], by simpa using htext⟩
  · rintro s arg mid hround ⟨r, args, hmore⟩
    obtain ⟨_, mid', hcomma, harg⟩ := bind_eq_ok.1 hround
    obtain ⟨b, b', hb, hb', rfl, -⟩ := comma_eq_ok.1 hcomma
    obtain ⟨cs, hcs, rfl⟩ := argument_sound hcall.reads harg
    have htext := MoreText.cons hb hb' hcs hmore
    exact ⟨r, arg :: args, by simpa using htext⟩

theorem exists_closesCall (hcall : Completes call) (h : RunsOut (arguments call) firm s) :
    ∃ r, ClosesCall (s ++ r) := by
  have := hcall.reads.shrinks
  unfold arguments at h
  simp only [runsOut_expecting, runsOut_commit, runsOut_bind, not_runsOut_blanks, not_runsOut_pure,
    runsOut_char, blanks_eq_ok, false_or, and_false, exists_false, or_false] at h
  obtain ⟨-, _, _, mid, ⟨b, rfl, hb, -⟩,
    h | ⟨args, rest, hargs, _, _, ⟨b', rfl, hb', -⟩, -, rfl⟩⟩ := h
  · rcases runsOut_sepBy h with hfirst | ⟨arg, rest, hfirst, hmany⟩
    · obtain ⟨r, arg, hcs⟩ := exists_argText hcall hfirst
      have hcloses := closesCall_applied hb hcs .nil blanks_nil
      exact ⟨r ++ [')'], by simpa using hcloses⟩
    · obtain ⟨cs, hcs, rfl⟩ := argument_sound hcall.reads hfirst
      obtain ⟨r, args, hmore⟩ := exists_moreText hcall hmany
      have hcloses := closesCall_applied hb hcs hmore blanks_nil
      exact ⟨r ++ [')'], by simpa using hcloses⟩
  · obtain ⟨-, rfl, rfl⟩ | ⟨arg, others, mid', rfl, harg, hmany⟩ := sepBy_eq_ok.1 hargs
    · have hblanks : Blanks (b ++ b') := fun d hd => (List.mem_append.1 hd).elim (hb d) (hb' d)
      exact ⟨[')'], by simpa using closesCall_nullary hblanks⟩
    · obtain ⟨cs, hcs, rfl⟩ := argument_sound hcall.reads harg
      obtain ⟨more, hmore, rfl⟩ := more_sound hcall.reads hmany
      have hcloses := closesCall_applied hb hcs hmore hb'
      exact ⟨[')'], by simpa using hcloses⟩

theorem isName_letter : IsName ['f'] := ⟨'f', [], rfl, rfl, nofun⟩

/-- A call may end in its name, behind its name and behind its parenthesis. -/
theorem completes_callStep (hcall : Completes call) : Completes (callStep call) where
  reads := callStep_sound hcall.reads
  exists_callText {s firm} h := by
    unfold callStep at h
    simp only [runsOut_bind, not_runsOut_blanks, not_runsOut_pure, runsOut_char, blanks_eq_ok,
      char_eq_ok, name_eq_ok, false_or, and_false, exists_false, or_false] at h
    obtain h | ⟨f, _, ⟨rfl, hf, -⟩, _, mid, ⟨g, rfl, hg, -⟩, ⟨rfl, rfl⟩ | ⟨_, t, ⟨-, rfl⟩, h⟩⟩ := h
    · obtain ⟨rfl, rfl⟩ := eq_nil_of_runsOut_name h
      exact ⟨"f()".toList, [], _, .nullary isName_letter blanks_nil blanks_nil, nofun⟩
    · have htext := CallText.nullary hf hg blanks_nil
      exact ⟨"()".toList, g, _, by simpa using htext, nofun⟩
    · obtain ⟨r, hcloses⟩ := exists_closesCall hcall h
      obtain ⟨args, htext⟩ := hcloses f g hf hg
      exact ⟨r, g, _, by simpa using htext, fun _ => ⟨f, t, rfl, rfl⟩⟩

theorem completes_fail : Completes fail where
  reads s c rest h := absurd h fail_ne_ok
  exists_callText {s firm} h := by
    obtain ⟨_, ⟨⟩, rfl, rfl⟩ := h
    exact ⟨"f()".toList, [], _, .nullary isName_letter blanks_nil blanks_nil, nofun⟩

theorem exists_callText {s : List Char} (h : RunsOut Template.call firm s) :
    ∃ r g c, CallText g c (s ++ r) := by
  obtain ⟨p, hp, hfix⟩ := fix_rec completes_fail (fun _ hp => completes_callStep hp) s
  have hrun : RunsOut p firm s := by
    obtain ⟨e, he, hfail⟩ := h
    exact ⟨e, hfix.symm.trans he, hfail⟩
  obtain ⟨r, g, c, hcs, -⟩ := hp.exists_callText hrun
  exact ⟨r, g, c, hcs⟩

/-! ## Spans and texts -/

theorem exists_spanText (h : RunsOut span firm (opener ++ s)) :
    ∃ r node, SpanText node (opener ++ s ++ r) := by
  unfold span at h
  simp only [runsOut_expecting, runsOut_bind, not_runsOut_of_ok (literal_append opener s),
    runsOut_commit, runsOut_orElse, not_runsOut_of_soft, not_runsOut_blanks, not_runsOut_pure,
    literal_eq_ok, blanks_eq_ok, List.append_cancel_left_eq, false_or, and_false, exists_false,
    or_false] at h
  obtain ⟨_, _, rfl, -, f, _, mid, ⟨b, rfl, hb, -⟩, ⟨-, h⟩ | ⟨node, rest, hnode, h⟩⟩ := h
  · obtain ⟨r, g, c, hcs⟩ := exists_callText h
    have htext := SpanText.call hb hcs blanks_nil
    exact ⟨r ++ ['}'], _, by simpa [opener] using htext⟩
  · have hb' := blanks_of_runsOut_closeSpan h
    simp only [orElse_eq_ok, bind_eq_ok, pure_eq_ok] at hnode
    obtain ⟨n, _, hn, rfl, rfl⟩ | ⟨-, c, _, hc, rfl, rfl⟩ := hnode
    · obtain ⟨ds, rfl, hd, hp, rfl, -⟩ := positional_eq_ok.1 hn
      have htext := SpanText.positional hb hd hp hb'
      exact ⟨['}'], _, by simpa [opener] using htext⟩
    · obtain ⟨g, cs, hcs, rfl⟩ := call_eq_ok.1 hc
      have htext := SpanText.call hb hcs hb'
      exact ⟨['}'], _, by simpa [opener] using htext⟩

/-- A text that fails at its end compiles with more text behind it. -/
theorem exists_nodesBehind (s : List Char) : ∀ {held e}, nodesBehind held s = .failed e →
    e.rest = [] → ∃ r nodes, nodesBehind held (s ++ r) = .ok nodes [] := by
  induction s using text_rec with
  | nil =>
    intro held e h _
    rw [nodesBehind_nil] at h
    cases h
  | plain c s hc ih =>
    intro held e h hend
    rw [nodesBehind_plain hc] at h
    obtain ⟨r, nodes, hr⟩ := ih h hend
    exact ⟨r, nodes, by rw [List.cons_append, nodesBehind_plain hc, hr]⟩
  | escaped s ih =>
    intro held e h hend
    rw [nodesBehind_escapedOpener] at h
    obtain ⟨r, nodes, hr⟩ := ih h hend
    exact ⟨r, nodes, by rw [List.cons_append, List.cons_append, List.cons_append,
      nodesBehind_escapedOpener, hr]⟩
  | dollar s hs ih =>
    intro held e h hend
    rw [nodesBehind_dollar hs] at h
    obtain ⟨r, nodes, hr⟩ := ih h hend
    have hlone : Lone (s ++ r) := by
      -- where the failure is there is an opener in front of it, which is two characters
      obtain ⟨front, gap, hfirst⟩ := firstBareOpener_of_failed s h
      have hlen : 2 ≤ s.length := by
        rw [hfirst.split]
        simp [opener]
        omega
      exact hs.append_of_two hlen r
    exact ⟨r, nodes, by rw [List.cons_append, nodesBehind_dollar hlone, hr]⟩
  | span s rest node hspan ih =>
    intro held e h hend
    rw [nodesBehind_span hspan, Reply.map_eq_failed] at h
    obtain ⟨r, nodes, hr⟩ := ih h hend
    obtain ⟨cs, hcs, hs⟩ := span_eq_ok.1 hspan
    have hspan' : Template.span (cs ++ (rest ++ r)) = .ok node (rest ++ r) :=
      span_eq_ok.2 ⟨cs, hcs, rfl⟩
    refine ⟨r, textNode held.reverse ++ node :: nodes, ?_⟩
    rw [hs, List.append_assoc, nodesBehind_span hspan', hr, Reply.map_ok]
  | failed s e hspan =>
    intro held e' h hend
    rw [nodesBehind_of_span_failed hspan] at h
    cases h
    obtain ⟨r, node, hcs⟩ := exists_spanText ⟨e, hspan, rfl, hend⟩
    have hspan' : Template.span (opener ++ s ++ r) = .ok node [] :=
      span_eq_ok.2 ⟨_, hcs, (List.append_nil _).symm⟩
    refine ⟨r, textNode held.reverse ++ node :: textNode [], ?_⟩
    exact (nodesBehind_span hspan' held).trans (by rw [nodesBehind_nil, Reply.map_ok]; rfl)

end Phrasebook.Template

namespace Phrasebook

open Template in
/-- **An end that came too early can be put off.**  A text that is refused because it ended compiles
with some text behind it. -/
theorem Expression.exists_completion {s : String} {p : Text.Position}
    (h : parse s = .error (.unexpectedEnd p)) : ∃ r e, parse (s ++ r) = .ok e := by
  obtain ⟨f, hf, herr⟩ := parse_eq_error.1 h
  have hend : f.rest = [] := by
    cases hrest : f.rest with
    | nil => rfl
    | cons c rest =>
      rw [hrest] at herr
      cases herr
  obtain ⟨r, nodes, hr⟩ := exists_nodesBehind s.toList hf hend
  refine ⟨String.ofList r, ⟨nodes⟩, parse_eq_ok.2 ?_⟩
  rw [String.toList_append, String.toList_ofList]
  exact hr

/-- An integer that is too large ends the parse where the text ends, inside a call in a call. -/
theorem Expression.exists_completion_large :
    parse "$\x7bf(\"a\", $\x7bg(9223372036854775808" = .error (.unexpectedEnd ⟨1, 33⟩) ∧
      ∃ r e, parse ("$\x7bf(\"a\", $\x7bg(9223372036854775808" ++ r) = .ok e := by
  have hends : parse "$\x7bf(\"a\", $\x7bg(9223372036854775808" =
      .error (.unexpectedEnd ⟨1, 33⟩) := by
    refine (except_map_eq_error fun _ => ()).1 ?_
    decide +kernel
  exact ⟨hends, exists_completion hends⟩

end Phrasebook
