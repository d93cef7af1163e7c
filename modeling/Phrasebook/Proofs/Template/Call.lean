import Phrasebook.Proofs.Template.Spelling
/-!
# Reading calls — the parsers of calls and spans accept the texts of the grammar

Soundness is an induction on the recursion of the parser, completeness one on the derivation: what
follows an argument is a blank, a comma or the closing parenthesis (`Ends`), and each of these ends
a name, a numeral and a truth value.
-/
namespace Phrasebook.Template

open Phrasebook.Parser

/-! ## Progress -/

instance consumes_name : Consumes name := by
  unfold name
  infer_instance

instance shrinks_blanks : Shrinks blanks := by
  unfold blanks
  infer_instance

instance consumes_comma : Consumes comma := by
  unfold comma
  infer_instance

instance consumes_closeSpan : Consumes closeSpan := by
  unfold closeSpan
  infer_instance

instance consumes_stringLiteral : Consumes stringLiteral := by
  unfold stringLiteral
  infer_instance

instance consumes_boolean : Consumes boolean where
  length_lt {s b rest} h := by
    obtain ⟨rfl, _⟩ := boolean_eq_ok.1 h
    have : 0 < (boolText b).length := by cases b <;> decide
    rw [List.length_append]
    omega

instance consumes_positional : Consumes positional where
  length_lt h := by
    obtain ⟨ds, rfl, _⟩ := positional_eq_ok.1 h
    simp only [List.cons_append, List.length_cons, List.length_append]
    omega

instance consumes_number : Consumes number where
  length_lt h := by
    obtain ⟨n, hn, _, rfl⟩ := number_sound h
    have := List.length_pos_iff.2 hn.whole.1
    simp only [Numeral.text, List.length_append]
    omega

instance consumes_wrappedCall (call : Parser Call) [Shrinks call] :
    Consumes (wrappedCall call) := by
  unfold wrappedCall opener
  infer_instance

instance shrinks_argument (call : Parser Call) [Shrinks call] : Shrinks (argument call) := by
  unfold argument
  infer_instance

instance shrinks_arguments (call : Parser Call) [Shrinks call] : Shrinks (arguments call) := by
  unfold arguments
  infer_instance

instance consumes_callStep (call : Parser Call) [Shrinks call] : Consumes (callStep call) := by
  unfold callStep
  infer_instance

theorem agreesBelow_wrappedCall {n : Nat} {p q : Parser Call} [Shrinks p] (h : AgreesBelow n p q) :
    AgreesBelow n (wrappedCall p) (wrappedCall q) :=
  (AgreesBelow.refl n _).bind fun _ => .commit <| (AgreesBelow.refl n _).bind fun _ =>
    h.bind fun _ => .refl n _

theorem agreesBelow_argument {n : Nat} {p q : Parser Call} [Shrinks p] (h : AgreesBelow n p q) :
    AgreesBelow n (argument p) (argument q) :=
  ((agreesBelow_wrappedCall h).bind fun _ => .refl n _).orElse <| .orElse (.refl n _) <|
    .orElse (.refl n _) <| .orElse (.refl n _) <| .orElse (.refl n _) <| h.bind fun _ => .refl n _

theorem agreesBelow_arguments {n : Nat} {p q : Parser Call} [Shrinks p] (h : AgreesBelow n p q) :
    AgreesBelow n (arguments p) (arguments q) :=
  .expecting (.commit <| (AgreesBelow.refl n _).bind fun _ =>
    (agreesBelow_argument h).sepBy.bind fun _ => .refl n _) _

/-- The name of a call is read before its arguments. -/
instance guarded_callStep : Guarded callStep where
  shrinks _ _ := inferInstance
  below n _ _ _ h := .behind name fun _ => (AgreesBelow.refl n _).bind fun _ =>
    (AgreesBelow.refl n _).bind fun _ => (agreesBelow_arguments h).bind fun _ => .refl n _

theorem call_eq (s : List Char) : call s = callStep call s := fix_eq callStep s

instance shrinks_call : Shrinks call := shrinks_fix callStep

/-! ## Soundness -/

/-- What a parser of calls reads are the characters of a call. -/
def ReadsCalls (call : Parser Call) : Prop :=
  ∀ s c rest, call s = .ok c rest → ∃ g cs, CallText g c cs ∧ s = cs ++ rest

theorem ReadsCalls.shrinks {call : Parser Call} (h : ReadsCalls call) : Shrinks call where
  length_le hs := by
    obtain ⟨g, cs, _, rfl⟩ := h _ _ _ hs
    simp

theorem wrappedCall_sound {call : Parser Call} (hcall : ReadsCalls call) {s rest : List Char}
    {c : Call} (h : wrappedCall call s = .ok c rest) :
    ∃ g b cs b', Blanks b ∧ CallText g c cs ∧ Blanks b' ∧
      s = ('$' :: '{' :: b ++ cs ++ b' ++ ['}']) ++ rest := by
  unfold wrappedCall at h
  simp only [bind_eq_ok, commit_eq_ok, literal_eq_ok, blanks_eq_ok, closeSpan_eq_ok, pure_eq_ok]
    at h
  obtain ⟨_, _, rfl, _, _, ⟨b, rfl, hb, _⟩, _, _, hc, _, _, ⟨b', hb', rfl⟩, rfl, rfl⟩ := h
  obtain ⟨g, cs, hcs, rfl⟩ := hcall _ _ _ hc
  exact ⟨g, b, cs, b', hb, hcs, hb', by simp [opener]⟩

theorem CallText.split {g cs : List Char} {c : Call} (h : CallText g c cs) :
    ∃ f tail, c.name = String.ofList f ∧ IsName f ∧ Blanks g ∧ cs = f ++ (g ++ '(' :: tail) := by
  cases h with
  | @nullary f _ b hf hg _ => exact ⟨f, b ++ [')'], rfl, hf, hg, by simp⟩
  | @applied f _ b b' cs more _ _ hf hg _ _ _ _ =>
    exact ⟨f, b ++ cs ++ more ++ b' ++ [')'], rfl, hf, hg, by simp⟩

theorem stops_of_isBlank {d : Char} (hd : Text.isBlank d = true) (s : List Char) :
    Stops (fun c => isNameRest c || c == '(') (d :: s) := by
  rw [stops_cons, isNameRest_eq_false_of_isBlank hd, Bool.false_or, beq_eq_false_iff_ne]
  exact Text.ne_of_class hd (by decide)

/-- The blanks behind a truth value end it. -/
theorem boolean_blanks {b : Bool} {g : List Char} (hg : Blanks g) (hne : g ≠ []) (s : List Char) :
    boolean (boolText b ++ (g ++ s)) = .ok b (g ++ s) := by
  refine boolean_eq_ok.2 ⟨rfl, ?_⟩
  cases g with
  | nil => exact absurd rfl hne
  | cons d g => exact stops_of_isBlank (hg d List.mem_cons_self) _

/-- A truth value stands in front of a call exactly if the call has its name, with blanks behind. -/
theorem boolean_callText {g cs : List Char} {c : Call} (h : CallText g c cs) (rest : List Char) :
    (∃ b t, boolean (cs ++ rest) = .ok b t) ↔ g ≠ [] ∧ IsTruthName c.name.toList := by
  obtain ⟨f, tail, hname, hf, hg, rfl⟩ := h.split
  rw [hname, String.toList_ofList]
  have hends : Stops isNameRest (g ++ '(' :: (tail ++ rest)) := by
    cases g with
    | nil => rw [List.nil_append, stops_cons]; decide
    | cons d g => exact stops_cons.2 (isNameRest_eq_false_of_isBlank (hg d List.mem_cons_self))
  have hs : f ++ (g ++ '(' :: tail) ++ rest = f ++ (g ++ '(' :: (tail ++ rest)) := by simp
  rw [hs]
  have hrun : takeWhile isNameRest (f ++ (g ++ '(' :: (tail ++ rest))) =
      .ok f (g ++ '(' :: (tail ++ rest)) := by
    obtain ⟨first, others, rfl, h1, h2⟩ := hf
    refine takeWhile_append (fun d hd => ?_) hends
    rcases List.mem_cons.1 hd with rfl | hd
    · exact isNameRest_of_isNameStart h1
    · exact h2 d hd
  constructor
  · rintro ⟨b, t, hb⟩
    obtain ⟨hb, ht⟩ := boolean_eq_ok.1 hb
    have hletters : (boolText b).all isNameRest = true := by cases b <;> rfl
    have hword : takeWhile isNameRest (boolText b ++ t) = .ok (boolText b) t :=
      takeWhile_append (List.all_eq_true.1 hletters) (ht.imp fun d hd => by rw [hd]; rfl)
    rw [← hb, hrun] at hword
    injection hword with h1 h2
    refine ⟨?_, b, h1⟩
    rintro rfl
    rw [← h2, List.nil_append, stops_cons] at ht
    cases ht
  · rintro ⟨hne, b, rfl⟩
    exact ⟨b, _, boolean_blanks hg hne _⟩

theorem argument_sound {call : Parser Call} (hcall : ReadsCalls call) {s rest : List Char}
    {arg : Arg} (h : argument call s = .ok arg rest) : ∃ cs, ArgText arg cs ∧ s = cs ++ rest := by
  unfold argument at h
  simp only [orElse_eq_ok, bind_eq_ok, pure_eq_ok] at h
  obtain ⟨c, _, hc, rfl, rfl⟩ | ⟨_, ⟨cs, _, hs, rfl, rfl⟩ | ⟨_, ⟨n, _, hn, rfl, rfl⟩ | ⟨_, hn |
    ⟨_, ⟨b, _, hb, rfl, rfl⟩ | ⟨hb, c, rest, hc, rfl, rfl⟩⟩⟩⟩⟩ := h
  · obtain ⟨g, b, cs, b', hb, hcs, hb', rfl⟩ := wrappedCall_sound hcall hc
    exact ⟨_, .wrapped hb hcs hb', rfl⟩
  · obtain ⟨body, hbody, rfl⟩ := stringLiteral_eq_ok.1 hs
    exact ⟨_, .str hbody, by simp⟩
  · obtain ⟨ds, rfl, hd, hp, rfl, _⟩ := positional_eq_ok.1 hn
    exact ⟨_, .positional hd hp, rfl⟩
  · obtain ⟨n, hw, ha, rfl⟩ := number_sound hn
    exact ⟨_, .number hw ha, rfl⟩
  · obtain ⟨rfl, _⟩ := boolean_eq_ok.1 hb
    exact ⟨_, .bool b, rfl⟩
  · obtain ⟨g, cs, hcs, rfl⟩ := hcall _ _ _ hc
    refine ⟨cs, .bare hcs ?_, rfl⟩
    by_cases hg : g = []
    · exact .inl hg
    · refine .inr fun ht => ?_
      obtain ⟨b, t, hok⟩ := (boolean_callText hcs rest).2 ⟨hg, ht⟩
      exact hb.ne_ok (.bool b) t (bind_of_ok hok _)

theorem comma_eq_ok {s rest : List Char} {u : Unit} :
    comma s = .ok u rest ↔ ∃ b b', Blanks b ∧ Blanks b' ∧ s = b ++ ',' :: b' ++ rest ∧
      Stops Text.isBlank rest := by
  unfold comma
  simp only [bind_eq_ok, char_eq_ok, blanks_eq_ok]
  constructor
  · rintro ⟨_, _, ⟨b, rfl, hb, _⟩, _, _, ⟨_, rfl⟩, b', rfl, hb', hs⟩
    exact ⟨b, b', hb, hb', by simp, hs⟩
  · rintro ⟨b, b', hb, hb', rfl, hs⟩
    exact ⟨(), ',' :: b' ++ rest, ⟨b, by simp, hb, by rw [List.cons_append, stops_cons]; decide⟩,
      ',', b' ++ rest, ⟨rfl, rfl⟩, b', rfl, hb', hs⟩

theorem more_sound {call : Parser Call} [Shrinks call] (hcall : ReadsCalls call) :
    ∀ {args : List Arg} {s rest : List Char},
      many (do let _ ← comma; argument call) s = .ok args rest →
      ∃ cs, MoreText args cs ∧ s = cs ++ rest
  | [], s, rest, h => ⟨[], .nil, (many_eq_ok_nil.1 h).2⟩
  | arg :: args, s, rest, h => by
    obtain ⟨mid, ha, hm⟩ := many_eq_ok_cons.1 h
    obtain ⟨_, _, hc, harg⟩ := bind_eq_ok.1 ha
    obtain ⟨b, b', hb, hb', rfl, _⟩ := comma_eq_ok.1 hc
    obtain ⟨cs, hcs, rfl⟩ := argument_sound hcall harg
    obtain ⟨more, hmore, rfl⟩ := more_sound hcall hm
    exact ⟨_, .cons hb hb' hcs hmore, by simp⟩

theorem callStep_sound {call : Parser Call} (hcall : ReadsCalls call) :
    ReadsCalls (callStep call) := by
  intro s c rest h
  have := hcall.shrinks
  unfold callStep arguments at h
  simp only [bind_eq_ok, expecting_eq_ok, commit_eq_ok, name_eq_ok, blanks_eq_ok, char_eq_ok,
    pure_eq_ok] at h
  obtain ⟨f, _, ⟨rfl, hf, _⟩, _, _, ⟨g, rfl, hg, _⟩, _, _, ⟨_, rfl⟩, args, _,
    ⟨_, _, ⟨b, rfl, hb, _⟩, _, _, hargs, _, _, ⟨b', rfl, hb', _⟩, _, _, ⟨_, rfl⟩, rfl, rfl⟩, rfl,
    rfl⟩ := h
  obtain ⟨_, rfl, rfl⟩ | ⟨arg, others, mid, rfl, ha, hm⟩ := sepBy_eq_ok.1 hargs
  · refine ⟨g, _, .nullary (b := b ++ b') hf hg fun d hd => ?_, by simp⟩
    exact (List.mem_append.1 hd).elim (hb d) (hb' d)
  · obtain ⟨cs, hcs, rfl⟩ := argument_sound hcall ha
    obtain ⟨more, hmore, rfl⟩ := more_sound hcall hm
    exact ⟨g, _, .applied hf hg hb hcs hmore hb', by simp⟩

theorem call_sound : ReadsCalls call := fix_sound fun _ hp => callStep_sound hp

theorem span_sound {s rest : List Char} {node : Node} (h : span s = .ok node rest) :
    ∃ cs, SpanText node cs ∧ s = cs ++ rest := by
  unfold span at h
  simp only [expecting_eq_ok, bind_eq_ok, commit_eq_ok, literal_eq_ok, blanks_eq_ok, orElse_eq_ok,
    closeSpan_eq_ok, pure_eq_ok] at h
  obtain ⟨_, _, rfl, _, _, ⟨b, rfl, hb, _⟩, _, _, hnode, _, _, ⟨b', hb', rfl⟩, rfl, rfl⟩ := h
  obtain ⟨n, _, hn, rfl, rfl⟩ | ⟨_, c, _, hc, rfl, rfl⟩ := hnode
  · obtain ⟨ds, rfl, hd, hp, rfl, _⟩ := positional_eq_ok.1 hn
    exact ⟨_, .positional hb hd hp hb', by simp [opener]⟩
  · obtain ⟨g, cs, hcs, rfl⟩ := call_sound _ _ _ hc
    exact ⟨_, .call hb hcs hb', by simp [opener]⟩

/-! ## Completeness -/

/-- May this character follow an argument? -/
def endsArgument (c : Char) : Bool := Text.isBlank c || c == ',' || c == ')'

/-- What may follow an argument, within its call. -/
def Ends (rest : List Char) : Prop := ∃ c t, rest = c :: t ∧ endsArgument c = true

theorem isNameRest_eq_false_of_ends {c : Char} (h : endsArgument c = true) :
    isNameRest c = false := by
  simp only [endsArgument, Bool.or_eq_true, beq_iff_eq] at h
  rcases h with (h | rfl) | rfl
  · exact isNameRest_eq_false_of_isBlank h
  · decide
  · decide

/-- Names, numerals and truth values end where an argument ends. -/
theorem Ends.stops {rest : List Char} (h : Ends rest) {d : Char} (hd : endsArgument d = false) :
    Stops (fun c => isNameRest c || c == d) rest := by
  obtain ⟨c, t, rfl, hc⟩ := h
  rw [stops_cons, isNameRest_eq_false_of_ends hc, Bool.false_or, beq_eq_false_iff_ne]
  exact Text.ne_of_class hc hd

theorem ends_blanks {b : List Char} (hb : Blanks b) {c : Char} (hc : endsArgument c = true)
    (t : List Char) : Ends (b ++ c :: t) := by
  cases b with
  | nil => exact ⟨c, t, rfl, hc⟩
  | cons d b =>
    refine ⟨d, b ++ c :: t, rfl, ?_⟩
    rw [endsArgument, hb d List.mem_cons_self, Bool.true_or, Bool.true_or]

theorem MoreText.ends {args : List Arg} {more : List Char} (h : MoreText args more) {b : List Char}
    (hb : Blanks b) (rest : List Char) : Ends (more ++ (b ++ ')' :: rest)) := by
  cases h with
  | nil => exact ends_blanks hb (by decide) rest
  | cons hb₁ _ _ _ =>
    simp only [List.append_assoc, List.cons_append]
    exact ends_blanks hb₁ (by decide) _

theorem stops_blanks_append {b : List Char} (hb : Blanks b) {c : Char} (t : List Char)
    (hc : isNameRest c = false) : Stops isNameRest (b ++ c :: t) := by
  cases b with
  | nil => exact stops_cons.2 hc
  | cons d b => exact stops_cons.2 (isNameRest_eq_false_of_isBlank (hb d List.mem_cons_self))

/-! Each way to read an argument is refused by the first character of every other. -/

theorem refuses_wrappedCall (call : Parser Call) {c : Char} (hc : c ≠ '$') (s : List Char) :
    Refuses (wrappedCall call) (c :: s) := by
  refine (refuses_literal ?_).bind _
  rintro ⟨t, ht⟩
  injection ht with h _
  exact hc h.symm

theorem refuses_stringLiteral {c : Char} (hc : c ≠ '"') (s : List Char) :
    Refuses stringLiteral (c :: s) := (refuses_char (by simpa using hc)).bind _

theorem refuses_positional {c : Char} (hc : c ≠ '_') (s : List Char) :
    Refuses positional (c :: s) := (refuses_char (by simpa using hc)).bind _

theorem refuses_number {c : Char} (hc : c ≠ '-') (hd : c.isDigit = false) (s : List Char) :
    Refuses number (c :: s) :=
  Refuses.bind (refuses_optional_bind (refuses_char (by simpa using hc))
    ((refuses_takeSome (stops_cons.2 hd)).bind _)) _

theorem refuses_boolean_cons {c : Char} (ht : c ≠ 't') (hf : c ≠ 'f') (s : List Char) :
    Refuses boolean (c :: s) := by
  refine refuses_boolean fun b rest h => ?_
  have hs := (boolean_eq_ok.1 h).1
  cases b with
  | true => injection hs with h _; exact ht h
  | false => injection hs with h _; exact hf h

theorem refuses_call {c : Char} (hc : isNameStart c = false) (s : List Char) :
    Refuses call (c :: s) := by
  unfold Refuses
  rw [call_eq]
  exact ((refuses_satisfy (stops_cons.2 hc)).bind _).bind _

theorem refuses_argument_close (s : List Char) : Refuses (argument call) (')' :: s) :=
  ((refuses_wrappedCall _ (by decide) s).bind _).orElse <|
    ((refuses_stringLiteral (by decide) s).bind _).orElse <|
    ((refuses_positional (by decide) s).bind _).orElse <|
    (refuses_number (by decide) (by decide) s).orElse <|
    ((refuses_boolean_cons (by decide) (by decide) s).bind _).orElse <|
    (refuses_call (by decide) s).bind _

/-! The first character of an argument is no blank, so the blanks in front of it end there. -/

theorem IsName.head {f : List Char} (hf : IsName f) :
    ∃ c t, f = c :: t ∧ isNameStart c = true := by
  obtain ⟨c, t, rfl, hc, _⟩ := hf
  exact ⟨c, t, rfl, hc⟩

theorem isBlank_eq_false_of_isNameStart {c : Char} (h : isNameStart c = true) :
    Text.isBlank c = false := isBlank_eq_false_of_isNameRest (isNameRest_of_isNameStart h)

theorem CallText.head {g cs : List Char} {c : Call} (h : CallText g c cs) :
    ∃ d t, cs = d :: t ∧ isNameStart d = true := by
  obtain ⟨f, tail, _, hf, _, rfl⟩ := h.split
  obtain ⟨d, t, rfl, hd⟩ := hf.head
  exact ⟨d, _, rfl, hd⟩

theorem Numeral_head {n : Numeral} (hn : n.WellFormed) :
    ∃ c t, n.text = c :: t ∧ (c = '-' ∨ c.isDigit = true) := by
  obtain ⟨negative, whole, places⟩ := n
  obtain ⟨⟨hne, hw⟩, _⟩ := hn
  cases whole with
  | nil => exact absurd rfl hne
  | cons d whole =>
    cases negative with
    | true => exact ⟨'-', _, rfl, .inl rfl⟩
    | false => exact ⟨d, _, rfl, .inr (hw d List.mem_cons_self)⟩

theorem ArgText.stops {arg : Arg} {cs : List Char} (h : ArgText arg cs) (rest : List Char) :
    Stops Text.isBlank (cs ++ rest) := by
  cases h with
  | wrapped | str | positional => exact stops_cons.2 (by decide)
  | number hn _ =>
    obtain ⟨c, t, ht, hc⟩ := Numeral_head hn
    rw [ht]
    refine stops_cons.2 ?_
    rcases hc with rfl | hc
    · decide
    · exact Text.isBlank_eq_false_of_isAlphanum (Text.isAlphanum_of_isDigit hc)
  | bool b => cases b <;> exact stops_cons.2 (by decide)
  | bare hcs _ =>
    obtain ⟨d, t, rfl, hd⟩ := hcs.head
    exact stops_cons.2 (isBlank_eq_false_of_isNameStart hd)

theorem CallText.stops {g cs : List Char} {c : Call} (h : CallText g c cs) (rest : List Char) :
    Stops Text.isBlank (cs ++ rest) := by
  obtain ⟨d, t, rfl, hd⟩ := h.head
  exact stops_cons.2 (isBlank_eq_false_of_isNameStart hd)

/-- A call begins like no other argument but perhaps a truth value. -/
theorem argument_of_nameStart {c : Char} (hc : isNameStart c = true) (s : List Char) :
    argument call (c :: s) = ((do let b ← boolean; pure (.bool b))
      <|> (do let c ← call; pure (.call c.name c.args)) : Parser Arg) (c :: s) := by
  unfold argument
  rw [orElse_of_refuses ((refuses_wrappedCall _ (Text.ne_of_class hc (by decide)) s).bind _),
    orElse_of_refuses ((refuses_stringLiteral (Text.ne_of_class hc (by decide)) s).bind _),
    orElse_of_refuses ((refuses_positional (Text.ne_of_class hc (by decide)) s).bind _),
    orElse_of_refuses (refuses_number (Text.ne_of_class hc (by decide))
      (Text.isDigit_eq_false_of_isAlpha hc) s)]

theorem wrappedCall_of_call {b cs b' : List Char} {c : Call} (hb : Blanks b) (hb' : Blanks b')
    (rest : List Char) (hs : Stops Text.isBlank (cs ++ (b' ++ '}' :: rest)))
    (hc : call (cs ++ (b' ++ '}' :: rest)) = .ok c (b' ++ '}' :: rest)) :
    wrappedCall call (opener ++ (b ++ (cs ++ (b' ++ '}' :: rest)))) = .ok c rest := by
  unfold wrappedCall
  rw [bind_of_ok (literal_append opener _), commit_eq_ok, bind_of_ok (blanks_append hb hs),
    bind_of_ok hc, bind_of_ok (closeSpan_eq_ok (u := ()).2 ⟨b', hb', rfl⟩)]
  rfl

theorem arguments_of_sepBy {b b' s : List Char} {args : List Arg} (hb : Blanks b)
    (hb' : Blanks b') (rest : List Char) (hs : Stops Text.isBlank s)
    (hargs : sepBy (argument call) comma s = .ok args (b' ++ ')' :: rest)) :
    arguments call (b ++ s) = .ok args rest := by
  unfold arguments
  rw [expecting_eq_ok, commit_eq_ok, bind_of_ok (blanks_append hb hs), bind_of_ok hargs,
    bind_of_ok (blanks_append hb' (stops_cons.2 (by decide))),
    bind_of_ok (expecting_eq_ok.2 (char_cons ')' rest))]
  rfl

theorem call_of_name {f g : List Char} (hf : IsName f) (hg : Blanks g) (s : List Char) :
    call (f ++ (g ++ '(' :: s)) =
      (arguments call s).map fun args => ⟨String.ofList f, args⟩ := by
  rw [call_eq]
  unfold callStep
  rw [bind_of_ok (name_eq_ok.2 ⟨rfl, hf, stops_blanks_append hg s (by decide)⟩),
    bind_of_ok (blanks_append hg (stops_cons.2 (by decide))), bind_of_ok (char_cons '(' s),
    bind_apply]
  cases arguments call s <;> rfl

theorem argument_of_wrappedCall {s rest : List Char} {c : Call}
    (h : wrappedCall call s = .ok c rest) : argument call s = .ok (.call c.name c.args) rest :=
  orElse_of_ok (bind_pure_of_ok h _) _

/-- A bare call is an argument, unless a truth value is read in front of it. -/
theorem argument_of_call {g cs rest : List Char} {c : Call} (hcs : CallText g c cs)
    (hg : g = [] ∨ ¬ IsTruthName c.name.toList) (h : call (cs ++ rest) = .ok c rest) :
    argument call (cs ++ rest) = .ok (.call c.name c.args) rest := by
  have hbool : Refuses boolean (cs ++ rest) := refuses_boolean fun b t hb => by
    obtain ⟨hne, ht⟩ := (boolean_callText hcs rest).1 ⟨b, t, hb⟩
    exact hg.elim hne fun hname => hname ht
  obtain ⟨d, t, rfl, hd⟩ := hcs.head
  rw [List.cons_append] at h hbool ⊢
  rw [argument_of_nameStart hd, orElse_of_refuses (hbool.bind _)]
  exact bind_pure_of_ok h _

theorem argument_of_boolean {s rest : List Char} {b : Bool} (h : boolean s = .ok b rest) :
    argument call s = .ok (.bool b) rest := by
  obtain ⟨c, t, ht, hc⟩ : ∃ c t, boolText b = c :: t ∧ isNameStart c = true := by
    cases b <;> exact ⟨_, _, rfl, by decide⟩
  have hs := (boolean_eq_ok.1 h).1
  rw [ht, List.cons_append] at hs
  rw [hs] at h ⊢
  rw [argument_of_nameStart hc]
  exact orElse_of_ok (bind_pure_of_ok h _) _

mutual

theorem argument_complete : ∀ {arg : Arg} {cs : List Char}, ArgText arg cs →
    ∀ {rest : List Char}, Ends rest → argument call (cs ++ rest) = .ok arg rest
  | _, _, @ArgText.wrapped _ _ _ cs b b' hb hcs hb', rest, _ => by
    have hs : '$' :: '{' :: b ++ cs ++ b' ++ ['}'] ++ rest =
        opener ++ (b ++ (cs ++ (b' ++ '}' :: rest))) := by simp [opener]
    rw [hs]
    exact argument_of_wrappedCall (wrappedCall_of_call hb hb' rest (hcs.stops _)
      (call_complete hcs _))
  | _, _, @ArgText.str _ cs hcs, rest, _ => by
    have hs : '"' :: cs ++ ['"'] ++ rest = '"' :: cs ++ '"' :: rest := by simp
    rw [hs]
    unfold argument
    rw [List.cons_append, orElse_of_refuses ((refuses_wrappedCall _ (by decide) _).bind _)]
    exact orElse_of_ok (bind_pure_of_ok (stringLiteral_eq_ok.2 ⟨cs, hcs, rfl⟩) _) _
  | _, _, @ArgText.positional ds hd hp, rest, hr => by
    have hstop : Stops isNameRest rest := (hr.stops (d := '.') (by decide)).imp fun c hc => by
      rw [hc]; rfl
    unfold argument
    rw [List.cons_append, orElse_of_refuses ((refuses_wrappedCall _ (by decide) _).bind _),
      orElse_of_refuses ((refuses_stringLiteral (by decide) _).bind _)]
    exact orElse_of_ok (bind_pure_of_ok (positional_eq_ok.2 ⟨ds, rfl, hd, hp, rfl, hstop⟩) _) _
  | _, _, .number hn ha, rest, hr => by
    have hok := number_text hn ha (hr.stops (d := '.') (by decide))
    obtain ⟨c, t, ht, hc⟩ := Numeral_head hn
    rw [ht, List.cons_append] at hok ⊢
    have hne : ∀ d, d ≠ '-' → d.isDigit = false → c ≠ d := by
      rintro d h1 h2 rfl
      rcases hc with hc | hc
      · exact h1 hc
      · rw [hc] at h2; cases h2
    unfold argument
    rw [orElse_of_refuses ((refuses_wrappedCall _ (hne _ (by decide) (by decide)) _).bind _),
      orElse_of_refuses ((refuses_stringLiteral (hne _ (by decide) (by decide)) _).bind _),
      orElse_of_refuses ((refuses_positional (hne _ (by decide) (by decide)) _).bind _)]
    exact orElse_of_ok hok _
  | _, _, .bool b, rest, hr => argument_of_boolean (boolean_eq_ok.2 ⟨rfl, hr.stops (by decide)⟩)
  | _, _, .bare hcs hg, rest, _ => argument_of_call hcs hg (call_complete hcs rest)

theorem call_complete : ∀ {g : List Char} {c : Call} {cs : List Char}, CallText g c cs →
    ∀ rest, call (cs ++ rest) = .ok c rest
  | _, _, _, @CallText.nullary f g b hf hg hb, rest => by
    have hs : f ++ g ++ '(' :: b ++ [')'] ++ rest = f ++ (g ++ '(' :: (b ++ ')' :: rest)) := by simp
    rw [hs, call_of_name hf hg, arguments_of_sepBy hb blanks_nil rest (stops_cons.2 (by decide))
      (sepBy_of_refuses (refuses_argument_close rest))]
    rfl
  | _, _, _, @CallText.applied f g b b' cs more _ _ hf hg hb ha hm hb', rest => by
    have hs : f ++ g ++ '(' :: b ++ cs ++ more ++ b' ++ [')'] ++ rest =
        f ++ (g ++ '(' :: (b ++ (cs ++ (more ++ (b' ++ ')' :: rest))))) := by simp
    rw [hs, call_of_name hf hg, arguments_of_sepBy hb hb' rest (ha.stops _)
      (sepBy_eq_ok.2 (.inr ⟨_, _, _, rfl, argument_complete ha (hm.ends hb' rest),
        more_complete hm hb' rest⟩))]
    rfl

theorem more_complete : ∀ {args : List Arg} {more : List Char}, MoreText args more →
    ∀ {b : List Char}, Blanks b → ∀ rest,
      many (do let _ ← comma; argument call) (more ++ (b ++ ')' :: rest)) =
        .ok args (b ++ ')' :: rest)
  | _, _, .nil, b, hb, rest => by
    rw [List.nil_append]
    refine many_of_refuses (Refuses.bind ?_ _)
    have hclose : Refuses (char ',') (')' :: rest) := refuses_char (by simp)
    exact refuses_bind_of_ok (blanks_append hb (stops_cons.2 (by decide))) (hclose.bind _)
  | _, _, @MoreText.cons b₁ b₂ cs more _ _ hb₁ hb₂ ha hm, b, hb, rest => by
    have hs : b₁ ++ ',' :: b₂ ++ cs ++ more ++ (b ++ ')' :: rest) =
        b₁ ++ ',' :: b₂ ++ (cs ++ (more ++ (b ++ ')' :: rest))) := by simp
    have hcomma : comma (b₁ ++ ',' :: b₂ ++ (cs ++ (more ++ (b ++ ')' :: rest)))) = .ok () _ :=
      comma_eq_ok.2 ⟨b₁, b₂, hb₁, hb₂, rfl, ha.stops _⟩
    rw [hs, many_eq_ok_cons]
    refine ⟨_, ?_, more_complete hm hb rest⟩
    rw [bind_of_ok hcomma]
    exact argument_complete ha (hm.ends hb rest)

end

/-- The parser of calls reads the texts of calls, whatever stands behind them. -/
theorem call_eq_ok {s rest : List Char} {c : Call} :
    call s = .ok c rest ↔ ∃ g cs, CallText g c cs ∧ s = cs ++ rest := by
  constructor
  · exact call_sound s c rest
  · rintro ⟨g, cs, hcs, rfl⟩
    exact call_complete hcs rest

/-- The parser of spans reads the texts of spans, whatever stands behind them. -/
theorem span_eq_ok {s rest : List Char} {node : Node} :
    span s = .ok node rest ↔ ∃ cs, SpanText node cs ∧ s = cs ++ rest := by
  constructor
  · exact span_sound
  · rintro ⟨_, hcs, rfl⟩
    unfold span
    rw [expecting_eq_ok]
    cases hcs with
    | @positional ds b b' hb hd hp hb' =>
      have hs : '$' :: '{' :: b ++ '_' :: ds ++ b' ++ ['}'] ++ rest =
          opener ++ (b ++ ('_' :: ds ++ (b' ++ '}' :: rest))) := by simp [opener]
      have hpos : positional ('_' :: ds ++ (b' ++ '}' :: rest)) = .ok _ _ :=
        positional_eq_ok.2 ⟨ds, rfl, hd, hp, rfl, stops_blanks_append hb' rest (by decide)⟩
      rw [hs, bind_of_ok (literal_append opener _), commit_eq_ok,
        bind_of_ok (blanks_append hb (by rw [List.cons_append, stops_cons]; decide)),
        bind_of_ok (orElse_of_ok (bind_pure_of_ok hpos Node.positional) _),
        bind_of_ok (closeSpan_eq_ok (u := ()).2 ⟨b', hb', rfl⟩)]
      rfl
    | @call c g cs b b' hb hcs hb' =>
      have hs : '$' :: '{' :: b ++ cs ++ b' ++ ['}'] ++ rest =
          opener ++ (b ++ (cs ++ (b' ++ '}' :: rest))) := by simp [opener]
      have hpos : Refuses positional (cs ++ (b' ++ '}' :: rest)) := by
        obtain ⟨d, t, rfl, hd⟩ := hcs.head
        exact refuses_positional (Text.ne_of_class hd (by decide)) _
      rw [hs, bind_of_ok (literal_append opener _), commit_eq_ok,
        bind_of_ok (blanks_append hb (hcs.stops _)),
        bind_of_ok ((orElse_of_refuses (hpos.bind _) _).trans
          (bind_pure_of_ok (call_complete hcs _) Node.call)),
        bind_of_ok (closeSpan_eq_ok (u := ()).2 ⟨b', hb', rfl⟩)]
      rfl

end Phrasebook.Template
