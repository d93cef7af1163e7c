import Phrasebook.Proofs.Parser.Progress
import Phrasebook.Proofs.Text.Class
import Phrasebook.Template.Grammar
/-!
# The texts of spans — the grammar of templates as a relation

`CallText`, `ArgText` and `SpanText` say which characters spell a call, an argument and a span, with
the blanks between their tokens and without a word about what follows.  The parsers read exactly
these texts: `span_eq_ok` for spans, whatever stands behind them, and `call_eq_ok` for calls.
-/
namespace Phrasebook.Template

open Phrasebook.Parser

/-! ## Tokens -/

def Blanks (cs : List Char) : Prop := ∀ c ∈ cs, Text.isBlank c = true

instance decidableBlanks (cs : List Char) : Decidable (Blanks cs) :=
  decidable_of_iff (cs.all Text.isBlank = true) List.all_eq_true

theorem blanks_nil : Blanks [] := fun c hc => by cases hc

def Digits (cs : List Char) : Prop := cs ≠ [] ∧ ∀ c ∈ cs, c.isDigit = true

def IsName (cs : List Char) : Prop :=
  ∃ first others, cs = first :: others ∧ isNameStart first = true ∧
    ∀ c ∈ others, isNameRest c = true

def boolText (b : Bool) : List Char := if b then "true".toList else "false".toList

/-- A name that stands in front of a call and is a truth value where a token ends behind it. -/
def IsTruthName (f : List Char) : Prop := ∃ b, f = boolText b

/-- The characters between the quotes of a string argument, and what they stand for. -/
inductive StringText : List Char → List Char → Prop
  | nil : StringText [] []
  | plain {c : Char} {s cs : List Char} : c ≠ '"' → c ≠ '\\' → StringText s cs →
      StringText (c :: s) (c :: cs)
  | escape {e c : Char} {s cs : List Char} : Text.unescape e = some c → StringText s cs →
      StringText (c :: s) ('\\' :: e :: cs)

end Phrasebook.Template

namespace Phrasebook.Numeral

/-- Digits where the grammar has digits. -/
structure WellFormed (n : Numeral) : Prop where
  whole  : Template.Digits n.whole
  places : ∀ ds ∈ n.places, Template.Digits ds

def text (n : Numeral) : List Char :=
  (if n.negative then ['-'] else []) ++ n.whole ++
    (match n.places with
      | none    => []
      | some ds => '.' :: ds)

/-- The argument that a numeral stands for, if its value fits. -/
def toArg? (n : Numeral) : Option Arg :=
  match n.places, n.toInt64? with
  | some _, _      => some (.float n.toDouble)
  | none,   some k => some (.int k)
  | none,   none   => none

end Phrasebook.Numeral

namespace Phrasebook.Template

open Phrasebook.Parser

/-! ## Calls -/

mutual

/-- The characters of an argument.  A bare call that is named like a truth value has its
parenthesis right behind its name. -/
inductive ArgText : Arg → List Char → Prop
  | wrapped {name : String} {args : List Arg} {g cs b b' : List Char} :
      Blanks b → CallText g ⟨name, args⟩ cs → Blanks b' →
      ArgText (.call name args) ('$' :: '{' :: b ++ cs ++ b' ++ ['}'])
  | str {s cs : List Char} : StringText s cs → ArgText (.str (String.ofList s)) ('"' :: cs ++ ['"'])
  | positional {ds : List Char} : Digits ds → isPosition (decimalValue ds) = true →
      ArgText (.positional (decimalValue ds)) ('_' :: ds)
  | number {n : Numeral} {arg : Arg} : n.WellFormed → n.toArg? = some arg → ArgText arg n.text
  | bool (b : Bool) : ArgText (.bool b) (boolText b)
  | bare {name : String} {args : List Arg} {g cs : List Char} :
      CallText g ⟨name, args⟩ cs → g = [] ∨ ¬ IsTruthName name.toList →
      ArgText (.call name args) cs

/-- The characters of a call, with the blanks between its name and its parenthesis. -/
inductive CallText : List Char → Call → List Char → Prop
  | nullary {f g b : List Char} : IsName f → Blanks g → Blanks b →
      CallText g ⟨String.ofList f, []⟩ (f ++ g ++ '(' :: b ++ [')'])
  | applied {f g b b' cs more : List Char} {arg : Arg} {args : List Arg} :
      IsName f → Blanks g → Blanks b → ArgText arg cs → MoreText args more → Blanks b' →
      CallText g ⟨String.ofList f, arg :: args⟩ (f ++ g ++ '(' :: b ++ cs ++ more ++ b' ++ [')'])

/-- The characters of the arguments behind the first, each with its comma. -/
inductive MoreText : List Arg → List Char → Prop
  | nil : MoreText [] []
  | cons {b b' cs more : List Char} {arg : Arg} {args : List Arg} :
      Blanks b → Blanks b' → ArgText arg cs → MoreText args more →
      MoreText (arg :: args) (b ++ ',' :: b' ++ cs ++ more)

end

inductive SpanText : Node → List Char → Prop
  | positional {ds b b' : List Char} : Blanks b → Digits ds → isPosition (decimalValue ds) = true →
      Blanks b' →
      SpanText (.positional (decimalValue ds)) ('$' :: '{' :: b ++ '_' :: ds ++ b' ++ ['}'])
  | call {c : Call} {g cs b b' : List Char} : Blanks b → CallText g c cs → Blanks b' →
      SpanText (.call c) ('$' :: '{' :: b ++ cs ++ b' ++ ['}'])

/-! ## Reading tokens -/

theorem name_eq_ok {s rest f : List Char} :
    name s = .ok f rest ↔ s = f ++ rest ∧ IsName f ∧ Stops isNameRest rest := by
  unfold name IsName
  simp only [bind_eq_ok, pure_eq_ok, satisfy_eq_ok, takeWhile_eq_ok]
  constructor
  · rintro ⟨c, mid, ⟨hc, rfl⟩, others, _, ⟨rfl, ho, hs⟩, rfl, rfl⟩
    exact ⟨rfl, ⟨c, others, rfl, hc, ho⟩, hs⟩
  · rintro ⟨rfl, ⟨c, others, rfl, hc, ho⟩, hs⟩
    exact ⟨c, others ++ rest, ⟨hc, rfl⟩, others, rest, ⟨rfl, ho, hs⟩, rfl, rfl⟩

theorem blanks_eq_ok {s rest : List Char} {u : Unit} :
    blanks s = .ok u rest ↔ ∃ b, s = b ++ rest ∧ Blanks b ∧ Stops Text.isBlank rest := by
  unfold blanks Blanks
  simp only [bind_eq_ok, pure_eq_ok, takeWhile_eq_ok]
  constructor
  · rintro ⟨b, _, h, _, rfl⟩
    exact ⟨b, h⟩
  · rintro ⟨b, h⟩
    exact ⟨b, rest, h, trivial, rfl⟩

theorem blanks_append {b rest : List Char} (hb : Blanks b) (hr : Stops Text.isBlank rest) :
    blanks (b ++ rest) = .ok () rest := blanks_eq_ok.2 ⟨b, rfl, hb, hr⟩

theorem closeSpan_eq_ok {s rest : List Char} {u : Unit} :
    closeSpan s = .ok u rest ↔ ∃ b, Blanks b ∧ s = b ++ '}' :: rest := by
  unfold closeSpan
  simp only [bind_eq_ok, pure_eq_ok, expecting_eq_ok, char_eq_ok, blanks_eq_ok]
  constructor
  · rintro ⟨_, mid, ⟨b, rfl, hb, _⟩, _, _, ⟨_, rfl⟩, _, rfl⟩
    exact ⟨b, hb, rfl⟩
  · rintro ⟨b, hb, rfl⟩
    exact ⟨(), _, ⟨b, rfl, hb, by rw [stops_cons]; decide⟩, '}', rest, ⟨rfl, rfl⟩, trivial, rfl⟩

theorem isNameRest_of_isDigit {c : Char} (h : c.isDigit = true) : isNameRest c = true := by
  rw [isNameRest, Text.isAlphanum_of_isDigit h, Bool.true_or]

theorem isNameRest_of_isNameStart {c : Char} (h : isNameStart c = true) : isNameRest c = true := by
  rw [isNameRest, Text.isAlphanum_of_isAlpha h, Bool.true_or]

theorem isBlank_eq_false_of_isNameRest {c : Char} (h : isNameRest c = true) :
    Text.isBlank c = false := by
  rw [isNameRest, Bool.or_eq_true] at h
  rcases h with h | h
  · exact Text.isBlank_eq_false_of_isAlphanum h
  · rw [beq_iff_eq] at h
    rw [h]
    decide

theorem isNameRest_eq_false_of_isBlank {c : Char} (h : Text.isBlank c = true) :
    isNameRest c = false :=
  Text.eq_false_of_apart (fun _ => isBlank_eq_false_of_isNameRest) c h

theorem positional_eq_ok {s rest : List Char} {n : Nat} :
    positional s = .ok n rest ↔ ∃ ds, s = '_' :: ds ++ rest ∧ Digits ds ∧
      isPosition (decimalValue ds) = true ∧ n = decimalValue ds ∧ Stops isNameRest rest := by
  unfold positional Digits
  simp only [bind_eq_ok, char_eq_ok, takeSome_eq_ok, notNext_eq_ok]
  constructor
  · rintro ⟨_, _, ⟨_, rfl⟩, ds, _, ⟨hne, rfl, hd, _⟩, _, _, ⟨hs, rfl⟩, h⟩
    split at h
    · obtain ⟨rfl, rfl⟩ := pure_eq_ok.1 h
      exact ⟨ds, rfl, ⟨hne, hd⟩, ‹_›, rfl, hs⟩
    · exact absurd h fail_ne_ok
  · rintro ⟨ds, rfl, ⟨hne, hd⟩, hp, rfl, hs⟩
    refine ⟨'_', ds ++ rest, ⟨rfl, rfl⟩, ds, rest,
      ⟨hne, rfl, hd, hs.imp fun c => isNameRest_of_isDigit⟩, (), rest, ⟨hs, rfl⟩, ?_⟩
    rw [if_pos hp, pure_eq_ok]
    exact ⟨rfl, rfl⟩

theorem stringChar_eq_ok {s rest : List Char} {c : Char} :
    stringChar s = .ok c rest ↔
      (∃ e, Text.unescape e = some c ∧ s = '\\' :: e :: rest) ∨
      c ≠ '"' ∧ c ≠ '\\' ∧ s = c :: rest := by
  unfold stringChar
  simp only [orElse_eq_ok, bind_eq_ok, char_eq_ok, pick_eq_ok, satisfy_eq_ok, Bool.and_eq_true,
    bne_iff_ne, ne_eq]
  constructor
  · rintro (⟨_, _, ⟨_, rfl⟩, e, he, rfl⟩ | ⟨_, ⟨h1, h2⟩, rfl⟩)
    · exact .inl ⟨e, he, rfl⟩
    · exact .inr ⟨h1, h2, rfl⟩
  · rintro (⟨e, he, rfl⟩ | ⟨h1, h2, rfl⟩)
    · exact .inl ⟨'\\', e :: rest, ⟨rfl, rfl⟩, e, he, rfl⟩
    · refine .inr ⟨(refuses_char ?_).bind _, ⟨h1, h2⟩, rfl⟩
      simpa using h2

instance consumes_stringChar : Consumes stringChar := by
  unfold stringChar
  infer_instance

theorem refuses_stringChar_quote (s : List Char) : Refuses stringChar ('"' :: s) :=
  ((refuses_char (by simp)).bind _).orElse (refuses_satisfy (by rw [stops_cons]; decide))

theorem many_stringChar_sound : ∀ {cs s rest : List Char},
    many stringChar s = .ok cs rest → ∃ body, StringText cs body ∧ s = body ++ rest
  | [], s, rest, h => ⟨[], .nil, (many_eq_ok_nil.1 h).2⟩
  | c :: cs, s, rest, h => by
    obtain ⟨mid, hc, hm⟩ := many_eq_ok_cons.1 h
    obtain ⟨body, hb, rfl⟩ := many_stringChar_sound hm
    obtain ⟨e, he, rfl⟩ | ⟨h1, h2, rfl⟩ := stringChar_eq_ok.1 hc
    · exact ⟨'\\' :: e :: body, .escape he hb, rfl⟩
    · exact ⟨c :: body, .plain h1 h2 hb, rfl⟩

theorem many_stringChar_complete {cs body : List Char} (h : StringText cs body)
    (rest : List Char) : many stringChar (body ++ '"' :: rest) = .ok cs ('"' :: rest) := by
  induction h with
  | nil => exact many_of_refuses (refuses_stringChar_quote rest)
  | plain h1 h2 _ ih => exact many_eq_ok_cons.2 ⟨_, stringChar_eq_ok.2 (.inr ⟨h1, h2, rfl⟩), ih⟩
  | escape he _ ih => exact many_eq_ok_cons.2 ⟨_, stringChar_eq_ok.2 (.inl ⟨_, he, rfl⟩), ih⟩

theorem many_stringChar_eq_ok {cs s rest : List Char} :
    many stringChar s = .ok cs ('"' :: rest) ↔
      ∃ body, StringText cs body ∧ s = body ++ '"' :: rest := by
  constructor
  · exact many_stringChar_sound
  · rintro ⟨body, hb, rfl⟩
    exact many_stringChar_complete hb rest

theorem stringLiteral_eq_ok {s rest cs : List Char} :
    stringLiteral s = .ok cs rest ↔
      ∃ body, StringText cs body ∧ s = '"' :: body ++ '"' :: rest := by
  unfold stringLiteral
  simp only [bind_eq_ok, commit_eq_ok, expecting_eq_ok, char_eq_ok, pure_eq_ok]
  constructor
  · rintro ⟨_, _, ⟨_, rfl⟩, _, _, hm, _, _, ⟨_, rfl⟩, rfl, rfl⟩
    obtain ⟨body, hb, rfl⟩ := many_stringChar_eq_ok.1 hm
    exact ⟨body, hb, rfl⟩
  · rintro ⟨body, hb, rfl⟩
    exact ⟨'"', _, ⟨rfl, rfl⟩, cs, _, many_stringChar_eq_ok.2 ⟨body, hb, rfl⟩, '"', rest,
      ⟨rfl, rfl⟩, rfl, rfl⟩

end Phrasebook.Template

namespace Phrasebook.Numeral

open Phrasebook.Parser

theorem parse_sound {s rest : List Char} {n : Numeral} (h : parse s = .ok n rest) :
    n.WellFormed ∧ s = n.text ++ rest := by
  unfold parse at h
  simp only [bind_eq_ok, optional_eq_ok, char_eq_ok, takeSome_eq_ok, pure_eq_ok] at h
  obtain ⟨sign, s₁, hsign, whole, s₂, ⟨hne, rfl, hw, _⟩, places, s₃, hp, rfl, rfl⟩ := h
  have hs : s = (if sign.isSome then ['-'] else []) ++ (whole ++ s₂) := by
    obtain ⟨_, rfl, _, rfl⟩ | ⟨_, rfl, rfl⟩ := hsign <;> rfl
  obtain ⟨ds, rfl, _, _, ⟨_, rfl⟩, hdne, rfl, hd, _⟩ | ⟨_, rfl, rfl⟩ := hp
  · refine ⟨⟨⟨hne, hw⟩, ?_⟩, ?_⟩
    · rintro _ ⟨⟩
      exact ⟨hdne, hd⟩
    · rw [hs, text]
      simp
  · refine ⟨⟨⟨hne, hw⟩, ?_⟩, ?_⟩
    · rintro _ ⟨⟩
    · rw [hs, text]
      simp

theorem optional_sign (negative : Bool) {s : List Char} (hs : s.head? ≠ some '-') :
    optional (char '-') ((if negative then ['-'] else []) ++ s) =
      .ok (if negative then some '-' else none) s := by
  cases negative with
  | true => exact optional_eq_ok.2 (.inl ⟨'-', rfl, char_cons '-' s⟩)
  | false => exact optional_of_refuses (refuses_char hs)

theorem optional_places {ds rest : List Char} (hds : Template.Digits ds)
    (hr : Stops Char.isDigit rest) :
    optional (do let _ ← char '.'; takeSome Char.isDigit) ('.' :: (ds ++ rest)) =
      .ok (some ds) rest := by
  refine optional_eq_ok.2 (.inl ⟨ds, rfl, ?_⟩)
  rw [bind_of_ok (char_cons '.' _)]
  exact takeSome_append hds.1 hds.2 hr

theorem head_digits {ds : List Char} (hds : Template.Digits ds) (rest : List Char) :
    (ds ++ rest).head? ≠ some '-' := by
  cases ds with
  | nil => exact absurd rfl hds.1
  | cons d ds =>
    have hd := hds.2 d List.mem_cons_self
    rintro ⟨⟩
    cases hd

/-- A numeral ends in front of everything but another digit or a point. -/
theorem parse_text {n : Numeral} (hn : n.WellFormed) {rest : List Char}
    (hr : Stops (fun c => c.isDigit || c == '.') rest) : parse (n.text ++ rest) = .ok n rest := by
  obtain ⟨negative, whole, places⟩ := n
  obtain ⟨hw, hp⟩ := hn
  have hdigit : Stops Char.isDigit rest := hr.imp fun c hc => by rw [hc]; rfl
  have hpoint : Refuses (char '.') rest := refuses_char fun hc => by
    have := hr '.' hc
    cases this
  have hsome : (if negative then some '-' else none).isSome = negative := by
    cases negative <;> rfl
  unfold parse
  cases places with
  | none =>
    simp only [text, List.append_nil, List.append_assoc]
    rw [bind_of_ok (optional_sign negative (head_digits hw _)),
      bind_of_ok (takeSome_append hw.1 hw.2 hdigit),
      bind_of_ok (optional_of_refuses (hpoint.bind _)), hsome]
    rfl
  | some ds =>
    simp only [text, List.append_assoc, List.cons_append]
    rw [bind_of_ok (optional_sign negative (head_digits hw _)),
      bind_of_ok (takeSome_append hw.1 hw.2 (stops_cons.2 (by decide))),
      bind_of_ok (optional_places (hp ds rfl) hdigit), hsome]
    rfl

end Phrasebook.Numeral

namespace Phrasebook.Template

open Phrasebook.Parser

theorem number_sound {s rest : List Char} {arg : Arg} (h : number s = .ok arg rest) :
    ∃ n : Numeral, n.WellFormed ∧ n.toArg? = some arg ∧ s = n.text ++ rest := by
  unfold number at h
  simp only [bind_eq_ok, notNext_eq_ok] at h
  obtain ⟨n, s₁, hn, _, _, ⟨_, rfl⟩, h⟩ := h
  obtain ⟨hw, rfl⟩ := Numeral.parse_sound hn
  refine ⟨n, hw, ?_⟩
  unfold Numeral.toArg?
  cases hp : n.places with
  | some ds =>
    rw [hp] at h
    obtain ⟨rfl, rfl⟩ := pure_eq_ok.1 h
    exact ⟨rfl, rfl⟩
  | none =>
    cases hk : n.toInt64? with
    | some k =>
      rw [hp, hk] at h
      obtain ⟨rfl, rfl⟩ := pure_eq_ok.1 h
      exact ⟨rfl, rfl⟩
    | none =>
      rw [hp, hk] at h
      exact absurd h abort_ne_ok

theorem number_text {n : Numeral} (hn : n.WellFormed) {arg : Arg} (ha : n.toArg? = some arg)
    {rest : List Char} (hr : Stops (fun c => isNameRest c || c == '.') rest) :
    number (n.text ++ rest) = .ok arg rest := by
  unfold number
  have hparse := Numeral.parse_text hn (hr.imp fun c hc => by
    rw [Bool.or_eq_true] at hc ⊢
    exact hc.imp_left isNameRest_of_isDigit)
  rw [bind_of_ok hparse, bind_of_ok (notNext_of_stops (hr.imp fun c hc => by rw [hc]; rfl))]
  unfold Numeral.toArg? at ha
  cases hp : n.places with
  | some ds =>
    rw [hp] at ha
    cases ha
    rfl
  | none =>
    cases hk : n.toInt64? with
    | some k =>
      rw [hp, hk] at ha
      cases ha
      rfl
    | none =>
      rw [hp, hk] at ha
      cases ha

theorem boolean_eq_ok {s rest : List Char} {b : Bool} :
    boolean s = .ok b rest ↔
      s = boolText b ++ rest ∧ Stops (fun c => isNameRest c || c == '(') rest := by
  unfold boolean
  simp only [bind_eq_ok, orElse_eq_ok, literal_eq_ok, notNext_eq_ok, pure_eq_ok]
  constructor
  · rintro ⟨_, _, ⟨_, _, rfl, rfl, rfl⟩ | ⟨_, _, _, rfl, rfl, rfl⟩, _, _, ⟨hs, rfl⟩, rfl, rfl⟩
    · exact ⟨rfl, hs⟩
    · exact ⟨rfl, hs⟩
  · rintro ⟨rfl, hs⟩
    refine ⟨b, rest, ?_, (), rest, ⟨hs, rfl⟩, rfl, rfl⟩
    cases b with
    | true => exact .inl ⟨(), rest, rfl, rfl, rfl⟩
    | false =>
      refine .inr ⟨(refuses_literal ?_).bind _, (), rest, rfl, rfl, rfl⟩
      rintro ⟨t, ht⟩
      cases ht

/-- The grammar of truth values has no point of no return. -/
theorem refuses_boolean {s : List Char} (h : ∀ b rest, boolean s ≠ .ok b rest) :
    Refuses boolean s := by
  unfold boolean
  have hword : ∀ (b : Bool) (w t : List Char),
      (do literal w; pure b : Parser Bool) (w ++ t) = .ok b t :=
    fun b w t => bind_of_ok (literal_append w t) _
  have hnext : ∀ (b : Bool) (t : List Char), s = boolText b ++ t →
      Refuses (do notNext (fun c => isNameRest c || c == '('); pure b : Parser Bool) t := by
    intro b t hs
    cases t with
    | nil => exact absurd (boolean_eq_ok.2 ⟨hs, stops_nil _⟩) (h b [])
    | cons c t =>
      cases hc : isNameRest c || c == '(' with
      | true => exact (refuses_notNext hc t).bind _
      | false => exact absurd (boolean_eq_ok.2 ⟨hs, stops_cons.2 hc⟩) (h b (c :: t))
  by_cases ht : "true".toList <+: s
  · obtain ⟨t, rfl⟩ := ht
    exact refuses_bind_of_ok (orElse_of_ok (hword true _ t) _) (hnext true t rfl)
  · have hrt := (refuses_literal ht).bind fun _ => (pure true : Parser Bool)
    by_cases hf : "false".toList <+: s
    · obtain ⟨t, rfl⟩ := hf
      refine refuses_bind_of_ok ?_ (hnext false t rfl)
      rw [orElse_of_refuses hrt]
      exact hword false _ t
    · exact (hrt.orElse ((refuses_literal hf).bind _)).bind _

end Phrasebook.Template
