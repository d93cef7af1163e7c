import Phrasebook.Proofs.Template.Canonical
/-!
# Bare and wrapped calls — `c` and `${c}` in the place of an argument

An argument that is a call may be written with `${` and `}` around it or without.  Whatever follows,
both are read as the same argument, with one exception: a bare call that is named like a truth value
and has a blank behind its name is read as the truth value, and its parenthesis is an error.  So a
span with the one compiles exactly if it does with the other, and to the same, unless the call is
such an exception (`Expression.parse_bare_call`).
-/
namespace Phrasebook.Template

open Phrasebook.Parser

/-! ## Texts in front of an argument -/

/-- Arguments in front of another one, each with its comma, and blanks anywhere between them. -/
inductive FrontText : List Arg → List Char → Prop
  | nil {b : List Char} : Blanks b → FrontText [] b
  | cons {b cs b' front : List Char} {arg : Arg} {args : List Arg} :
      Blanks b → ArgText arg cs → Blanks b' → FrontText args front →
      FrontText (arg :: args) (b ++ cs ++ b' ++ ',' :: front)

/-- A span up to the place of one of the arguments of its call. -/
inductive FrontOfArgument : List Char → Prop
  | mk {b f g front : List Char} {args : List Arg} :
      Blanks b → IsName f → Blanks g → FrontText args front →
      FrontOfArgument (opener ++ b ++ f ++ g ++ '(' :: front)

/-- The text begins with a truth value and a blank. -/
def TruthValueFirst (s : List Char) : Prop :=
  ∃ b d t, s = boolText b ++ d :: t ∧ Text.isBlank d = true

theorem truthValueFirst_iff {g cs : List Char} {c : Call} (h : CallText g c cs) :
    TruthValueFirst cs ↔ g ≠ [] ∧ IsTruthName c.name.toList := by
  constructor
  · rintro ⟨b, d, t, rfl, hd⟩
    refine (boolean_callText h []).1 ⟨b, d :: t, ?_⟩
    rw [List.append_nil]
    exact boolean_eq_ok.2 ⟨rfl, stops_of_isBlank hd t⟩
  · rintro ⟨hne, b, hb⟩
    obtain ⟨f, tail, hname, -, hg, rfl⟩ := h.split
    rw [hname, String.toList_ofList] at hb
    cases g with
    | nil => exact absurd rfl hne
    | cons d g => exact ⟨b, d, g ++ '(' :: tail, by rw [hb]; rfl, hg d List.mem_cons_self⟩

/-- The truth value is read, and the blanks and the parenthesis are left. -/
theorem boolean_of_truthValueFirst {g cs : List Char} {c : Call} (h : CallText g c cs)
    (hfirst : TruthValueFirst cs) (rest : List Char) :
    ∃ b t, Blanks g ∧ boolean (cs ++ rest) = .ok b (g ++ '(' :: t) := by
  obtain ⟨hne, b, hb⟩ := (truthValueFirst_iff h).1 hfirst
  obtain ⟨f, tail, hname, -, hg, rfl⟩ := h.split
  rw [hname, String.toList_ofList] at hb
  subst hb
  have htext : boolText b ++ (g ++ '(' :: tail) ++ rest =
      boolText b ++ (g ++ '(' :: (tail ++ rest)) := by simp
  exact ⟨b, tail ++ rest, hg, htext ▸ boolean_blanks hg hne _⟩

/-! ## The rest of a call -/

/-- The parser of arguments behind some that have been read. -/
def argumentsBehind (args : List Arg) : Parser (List Arg) :=
  expecting (.within "argument list") <| commit do
    let more ← many (do let _ ← comma; argument call)
    blanks
    let _ ← expecting (.closing ')') (char ')')
    pure (args ++ more)

theorem many_front {args : List Arg} {front : List Char} (h : FrontText args front) {b' : List Char}
    (hb' : Blanks b') {s mid : List Char} {arg : Arg} (hs : Stops Text.isBlank s)
    (harg : argument call s = .ok arg mid) :
    many (do let _ ← comma; argument call) (b' ++ ',' :: (front ++ s)) =
      (many (do let _ ← comma; argument call) mid).map (args ++ arg :: ·) := by
  -- each comma is read with the blanks on both sides of it, so the blanks in front are carried along
  induction h generalizing b' with
  | @nil b hb =>
    have hcomma : comma (b' ++ ',' :: (b ++ s)) = .ok () s :=
      comma_eq_ok.2 ⟨b', b, hb', hb, by simp, hs⟩
    exact many_of_ok ((bind_of_ok hcomma _).trans harg)
  | @cons b cs b'' front first args hb hcs hb'' _ ih =>
    have htext : b' ++ ',' :: (b ++ cs ++ b'' ++ ',' :: front ++ s) =
        b' ++ ',' :: b ++ (cs ++ (b'' ++ ',' :: (front ++ s))) := by simp
    have hcomma : comma (b' ++ ',' :: b ++ (cs ++ (b'' ++ ',' :: (front ++ s)))) = .ok () _ :=
      comma_eq_ok.2 ⟨b', b, hb', hb, rfl, hcs.stops _⟩
    have hfirst := argument_complete hcs (ends_blanks hb'' (c := ',') (by decide) (front ++ s))
    rw [htext, many_of_ok ((bind_of_ok hcomma _).trans hfirst), ih hb'', Reply.map_map]
    rfl

theorem arguments_of_sepBy_map {b s mid : List Char} {args : List Arg} (hb : Blanks b)
    (hs : Stops Text.isBlank s) (hargs : sepBy (argument call) comma s =
      (many (do let _ ← comma; argument call) mid).map (args ++ ·)) :
    arguments call (b ++ s) = argumentsBehind args mid := by
  unfold arguments argumentsBehind
  simp only [expecting, commit, bind_of_ok (blanks_append hb hs), bind_apply (sepBy _ _), hargs,
    bind_apply (many _)]
  cases many (do let _ ← comma; argument call) mid <;> rfl

/-- Where an argument is read, the call goes on behind it, whatever its characters were. -/
theorem arguments_front {args : List Arg} {front s mid : List Char} {arg : Arg}
    (h : FrontText args front) (hs : Stops Text.isBlank s) (harg : argument call s = .ok arg mid) :
    arguments call (front ++ s) = argumentsBehind (args ++ [arg]) mid := by
  cases h with
  | nil hb => exact arguments_of_sepBy_map hb hs (sepBy_of_ok harg)
  | @cons b cs b' front first args hb hcs hb' hfront =>
    have htext : b ++ cs ++ b' ++ ',' :: front ++ s = b ++ (cs ++ (b' ++ ',' :: (front ++ s))) := by
      simp
    have hfirst := argument_complete hcs (ends_blanks hb' (c := ',') (by decide) (front ++ s))
    rw [htext]
    refine arguments_of_sepBy_map hb (hcs.stops _) ?_
    rw [sepBy_of_ok hfirst, many_front hfront hb' hs harg, Reply.map_map]
    exact Reply.map_congr (fun more => by simp) _

/-- No argument and no call goes on with a parenthesis. -/
theorem argumentsBehind_open_ne_ok {g : List Char} (hg : Blanks g) (args args' : List Arg)
    (s rest : List Char) : argumentsBehind args (g ++ '(' :: s) ≠ .ok args' rest := by
  intro h
  have hstops : Stops Text.isBlank ('(' :: s) := stops_cons.2 (by decide)
  have hcomma : Refuses comma (g ++ '(' :: s) :=
    refuses_bind_of_ok (blanks_append hg hstops) ((refuses_char (by simp)).bind _)
  unfold argumentsBehind at h
  rw [expecting_eq_ok, commit_eq_ok, bind_of_ok (many_of_refuses (hcomma.bind _)),
    bind_of_ok (blanks_append hg hstops), bind_eq_ok] at h
  obtain ⟨c, mid, hclose, -⟩ := h
  obtain ⟨-, hparen⟩ := char_eq_ok.1 (expecting_eq_ok.1 hclose)
  cases hparen

/-- The parser of spans behind the arguments that have been read. -/
def spanBehind (f : List Char) (args : List Arg) : Parser Node :=
  expecting (.within "interpolation") <| commit do
    let args ← argumentsBehind args
    closeSpan
    pure (.call ⟨String.ofList f, args⟩)

theorem span_front {head : List Char} (h : FrontOfArgument head) :
    ∃ f args, ∀ {s mid : List Char} {arg : Arg}, Stops Text.isBlank s →
      argument call s = .ok arg mid → span (head ++ s) = spanBehind f (args ++ [arg]) mid := by
  obtain @⟨b, f, g, front, args, hb, hf, hg, hfront⟩ := h
  refine ⟨f, args, fun {s mid arg} hs harg => ?_⟩
  have htext : opener ++ b ++ f ++ g ++ '(' :: front ++ s =
      opener ++ (b ++ (f ++ (g ++ '(' :: (front ++ s)))) := by simp
  have hcall := call_of_name hf hg (front ++ s)
  rw [arguments_front hfront hs harg] at hcall
  obtain ⟨c, t, rfl, hc⟩ := hf.head
  have hblank : Stops Text.isBlank (c :: t ++ (g ++ '(' :: (front ++ s))) :=
    stops_cons.2 (isBlank_eq_false_of_isNameStart hc)
  have hpos : Refuses positional (c :: t ++ (g ++ '(' :: (front ++ s))) :=
    refuses_positional (Text.ne_of_class hc (by decide)) _
  rw [htext]
  unfold span spanBehind
  simp only [expecting, commit, bind_of_ok (literal_append opener _),
    bind_of_ok (blanks_append hb hblank), bind_apply (_ <|> _), orElse_of_refuses (hpos.bind _),
    bind_apply call, hcall, bind_apply (argumentsBehind _)]
  cases argumentsBehind (args ++ [arg]) mid <;> rfl

theorem spanBehind_open_ne_ok {g : List Char} (hg : Blanks g) (f : List Char) (args : List Arg)
    (node : Node) (s rest : List Char) : spanBehind f args (g ++ '(' :: s) ≠ .ok node rest := by
  intro h
  unfold spanBehind at h
  rw [expecting_eq_ok, commit_eq_ok, bind_eq_ok] at h
  obtain ⟨args', mid, hargs, -⟩ := h
  exact argumentsBehind_open_ne_ok hg args args' s mid hargs

theorem FrontOfArgument.split {head : List Char} (h : FrontOfArgument head) :
    ∃ t, head = opener ++ t := by
  obtain @⟨b, f, g, front, args, -, -, -, -⟩ := h
  exact ⟨b ++ f ++ g ++ '(' :: front, by simp⟩

theorem nodesBehind_congr_span {s s' : List Char} (h : span (opener ++ s) = span (opener ++ s'))
    (held : List Char) : nodesBehind held (opener ++ s) = nodesBehind held (opener ++ s') := by
  cases hspan : span (opener ++ s) with
  | ok node rest => rw [nodesBehind_span hspan, nodesBehind_span (h.symm.trans hspan)]
  | failed e =>
    exact (nodesBehind_of_span_failed hspan held).trans
      (nodesBehind_of_span_failed (h.symm.trans hspan) held).symm

/-! ## Both ways to write a call -/

/-- A call between an opener and a brace. -/
def wrap (b c b' : List Char) : List Char := opener ++ b ++ c ++ b' ++ ['}']

theorem argument_wrap {g b c b' : List Char} {k : Call} (hc : CallText g k c) (hb : Blanks b)
    (hb' : Blanks b') (s : List Char) :
    argument call (wrap b c b' ++ s) = .ok (.call k.name k.args) s := by
  have htext : wrap b c b' ++ s = opener ++ (b ++ (c ++ (b' ++ '}' :: s))) := by simp [wrap]
  rw [htext]
  exact argument_of_wrappedCall (wrappedCall_of_call hb hb' s (hc.stops _) (call_complete hc _))

/-- The same argument is read in both, so the spans are read alike. -/
theorem span_wrap {head g b c b' : List Char} {k : Call} (hhead : FrontOfArgument head)
    (hc : CallText g k c) (hbare : ¬ TruthValueFirst c) (hb : Blanks b) (hb' : Blanks b')
    (s : List Char) : span (head ++ (c ++ s)) = span (head ++ (wrap b c b' ++ s)) := by
  have hname : g = [] ∨ ¬ IsTruthName k.name.toList := by
    by_cases hg : g = []
    · exact .inl hg
    · exact .inr fun htruth => hbare ((truthValueFirst_iff hc).2 ⟨hg, htruth⟩)
  have hwrap : Stops Text.isBlank (wrap b c b' ++ s) := stops_cons.2 (by decide)
  obtain ⟨f, args, hspan⟩ := span_front hhead
  rw [hspan (hc.stops s) (argument_of_call hc hname (call_complete hc s)),
    hspan hwrap (argument_wrap hc hb hb' s)]

/-- The truth value is read, and the parenthesis behind its blanks ends the parse. -/
theorem span_truthValueFirst {head g c : List Char} {k : Call} (hhead : FrontOfArgument head)
    (hc : CallText g k c) (hfirst : TruthValueFirst c) (s : List Char) (node : Node)
    (rest : List Char) : span (head ++ (c ++ s)) ≠ .ok node rest := by
  obtain ⟨b, t, hg, hvalue⟩ := boolean_of_truthValueFirst hc hfirst s
  obtain ⟨f, args, hspan⟩ := span_front hhead
  rw [hspan (hc.stops s) (argument_of_boolean hvalue)]
  exact spanBehind_open_ne_ok hg _ _ _ _ _

end Phrasebook.Template

namespace Phrasebook

open Phrasebook.Parser
open Phrasebook.Template

/-- **A bare call is as good as a wrapped one**, in the place of any argument and in front of any
text, unless it begins with a truth value and a blank.  One that does never compiles. -/
theorem Expression.parse_bare_call {head c b b' : List Char} {k : Call}
    (hhead : FrontOfArgument head) (hc : call c = .ok k []) (hb : Blanks b) (hb' : Blanks b')
    (after : List Char) :
    (¬ TruthValueFirst c → ∀ e, parse (String.ofList (head ++ c ++ after)) = .ok e ↔
      parse (String.ofList (head ++ wrap b c b' ++ after)) = .ok e) ∧
    (TruthValueFirst c → ∀ e, parse (String.ofList (head ++ c ++ after)) ≠ .ok e) := by
  obtain ⟨g, cs, hcs, hall⟩ := call_eq_ok.1 hc
  obtain rfl : c = cs := by rw [hall, List.append_nil]
  obtain ⟨t, rfl⟩ := hhead.split
  have hbehind : ∀ cs : List Char, opener ++ t ++ cs ++ after = opener ++ (t ++ (cs ++ after)) := by
    intro cs
    simp only [List.append_assoc]
  constructor
  · intro hbare e
    have hspan := span_wrap hhead hcs hbare hb hb' after
    rw [List.append_assoc, List.append_assoc] at hspan
    rw [parse_eq_ok, parse_eq_ok, String.toList_ofList, String.toList_ofList, hbehind, hbehind,
      nodesBehind_congr_span hspan]
  · intro hfirst e h
    rw [parse_eq_ok, String.toList_ofList, hbehind] at h
    obtain ⟨node, rest, hspan⟩ := span_of_nodesBehind h
    refine span_truthValueFirst hhead hcs hfirst after node rest ?_
    rw [List.append_assoc]
    exact hspan

theorem Expression.parse_bare_call_behind_true :
    FrontOfArgument "$\x7bf(true,".toList ∧ call "g()".toList = .ok ⟨"g", []⟩ [] ∧
      ¬ TruthValueFirst "g()".toList ∧ parse "$\x7bf(true,$\x7bg() \x7d)\x7d" =
        .ok ⟨[.call ⟨"f", [.bool true, .call "g" []]⟩]⟩ := by
  have hfront : FrontText [.bool true] "true,".toList :=
    .cons blanks_nil (.bool true) blanks_nil (.nil blanks_nil)
  have hname : ∀ c, isNameStart c = true → IsName [c] := fun c hc => ⟨c, [], rfl, hc, nofun⟩
  have hhead : FrontOfArgument "$\x7bf(true,".toList :=
    .mk blanks_nil (hname 'f' rfl) blanks_nil hfront
  have hcall : call "g()".toList = .ok ⟨"g", []⟩ [] :=
    call_complete (.nullary (hname 'g' rfl) blanks_nil blanks_nil) []
  have hbare : ¬ TruthValueFirst "g()".toList := by
    rintro ⟨b, d, t, h, -⟩
    cases b <;> cases h
  have hparse : parse "$\x7bf(true,g())\x7d" =
      .ok ⟨[.call ⟨"f", [.bool true, .call "g" []]⟩]⟩ :=
    parse_print_of_isCanonical (e := ⟨[.call ⟨"f", [.bool true, .call "g" []]⟩]⟩) rfl rfl
  have hblank : Blanks [' '] := by decide
  have hwrapped := (parse_bare_call hhead hcall blanks_nil hblank ")\x7d".toList).1 hbare
  exact ⟨hhead, hcall, hbare, (hwrapped _).1 hparse⟩

/-- `true ()` is a call between `${` and `}`, and none where it stands alone. -/
theorem Expression.bare_call_named_true :
    ¬ ∀ (c : List Char) (k : Call), call c = .ok k [] → ∀ e,
      parse (String.ofList ("$\x7bf(".toList ++ c ++ ")\x7d".toList)) = .ok e ↔
        parse (String.ofList ("$\x7bf(".toList ++ wrap [] c [] ++ ")\x7d".toList)) = .ok e := by
  intro hclaim
  have hname : IsName "true".toList := ⟨'t', "rue".toList, rfl, rfl, List.all_eq_true.1 rfl⟩
  have hblank : Blanks [' '] := by decide
  have hcall : call "true ()".toList = .ok ⟨"true", []⟩ [] :=
    call_complete (.nullary hname hblank blanks_nil) []
  have hwrapped : (parse "$\x7bf($\x7btrue ()\x7d)\x7d").isOk = true := by decide +kernel
  have hbare : (parse "$\x7bf(true ())\x7d").isOk = false := by decide +kernel
  cases hparse : parse "$\x7bf($\x7btrue ()\x7d)\x7d" with
  | error err => rw [hparse] at hwrapped; cases hwrapped
  | ok e =>
    have hboth : parse "$\x7bf(true ())\x7d" = .ok e := (hclaim _ _ hcall e).2 hparse
    rw [hboth] at hbare
    cases hbare

end Phrasebook
