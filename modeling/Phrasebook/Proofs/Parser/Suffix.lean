import Phrasebook.ParseError
import Phrasebook.Parser.Numeral
import Phrasebook.Proofs.Parser.Progress
/-!
# Suffixes — what a parser leaves is an end of its text

A success hands back an end of the text, and a failure stands in front of one.  So a failure has a
place in its text, and the same place in every text that ends in this one.
-/
namespace Phrasebook.Parser

variable {α β : Type}

/-- What a success leaves, or what a failure stands in front of. -/
def Reply.rest : Reply α → List Char
  | .ok _ rest => rest
  | .failed e  => e.rest

/-- Every answer leaves an end of the text. -/
class Suffixed (p : Parser α) : Prop where
  rest_suffix : ∀ s, (p s).rest <:+ s

theorem suffix_of_ok {p : Parser α} [Suffixed p] {s rest : List Char} {a : α}
    (h : p s = .ok a rest) : rest <:+ s := by
  have hrest := Suffixed.rest_suffix (p := p) s
  rwa [h] at hrest

theorem suffix_of_failed {p : Parser α} [Suffixed p] {s : List Char} {e : Failure}
    (h : p s = .failed e) : e.rest <:+ s := by
  have hrest := Suffixed.rest_suffix (p := p) s
  rwa [h] at hrest

/-! ## Sequences and choices -/

instance suffixed_pure (a : α) : Suffixed (pure a : Parser α) where
  rest_suffix s := List.suffix_refl s

instance suffixed_fail : Suffixed (fail : Parser α) where
  rest_suffix s := List.suffix_refl s

instance suffixed_abort : Suffixed (abort : Parser α) where
  rest_suffix s := List.suffix_refl s

instance suffixed_bind (p : Parser α) (f : α → Parser β) [Suffixed p] [∀ a, Suffixed (f a)] :
    Suffixed (p >>= f) where
  rest_suffix s := by
    rw [bind_apply]
    cases h : p s with
    | ok a mid => exact (Suffixed.rest_suffix mid).trans (suffix_of_ok h)
    | failed e => exact suffix_of_failed h

instance suffixed_ite (c : Prop) [Decidable c] (p q : Parser α) [Suffixed p] [Suffixed q] :
    Suffixed (if c then p else q) := by
  split <;> infer_instance

instance suffixed_commit (p : Parser α) [Suffixed p] : Suffixed (commit p) where
  rest_suffix s := by
    unfold commit
    cases h : p s with
    | ok a rest => exact suffix_of_ok h
    | failed e =>
      have hrest := suffix_of_failed h
      exact hrest

instance suffixed_expecting (x : Expectation) (p : Parser α) [Suffixed p] :
    Suffixed (expecting x p) where
  rest_suffix s := by
    unfold expecting
    cases h : p s with
    | ok a rest => exact suffix_of_ok h
    | failed e =>
      have hrest := suffix_of_failed h
      exact hrest

instance suffixed_orElse (p q : Parser α) [Suffixed p] [Suffixed q] : Suffixed (p <|> q) where
  rest_suffix s := by
    rw [orElse_apply]
    cases h : p s with
    | ok a rest => exact suffix_of_ok h
    | failed e =>
      simp only
      split
      · exact suffix_of_failed h
      · exact Suffixed.rest_suffix s

instance suffixed_optional (p : Parser α) [Suffixed p] : Suffixed (optional p) where
  rest_suffix s := by
    unfold optional
    cases h : p s with
    | ok a rest => exact suffix_of_ok h
    | failed e =>
      simp only
      split
      · exact suffix_of_failed h
      · exact List.suffix_refl s

instance suffixed_peek (p : Parser α) : Suffixed (peek p) where
  rest_suffix s := by
    unfold peek
    cases p s <;> exact List.suffix_refl s

/-! ## Characters -/

instance suffixed_pick (table : Char → Option α) : Suffixed (pick table) where
  rest_suffix s := by
    cases s with
    | nil => exact List.suffix_refl []
    | cons c s =>
      rw [pick]
      split
      · exact List.suffix_cons c s
      · exact List.suffix_refl (c :: s)

instance suffixed_satisfy (test : Char → Bool) : Suffixed (satisfy test) := by
  unfold satisfy
  infer_instance

instance suffixed_char (c : Char) : Suffixed (char c) := by
  unfold char
  infer_instance

instance suffixed_literal (text : List Char) : Suffixed (literal text) where
  rest_suffix s := by
    unfold literal
    split
    · exact ⟨text, (isPrefixOf?_eq_some.1 ‹_›).symm⟩
    · exact List.suffix_refl s

instance suffixed_takeWhile (test : Char → Bool) : Suffixed (takeWhile test) where
  rest_suffix _ := List.dropWhile_suffix test

instance suffixed_takeSome (test : Char → Bool) : Suffixed (takeSome test) where
  rest_suffix s := by
    rw [takeSome_apply]
    split
    · exact List.suffix_refl s
    · exact List.dropWhile_suffix test

instance suffixed_notNext (test : Char → Bool) : Suffixed (notNext test) where
  rest_suffix s := by
    cases s with
    | nil => exact List.suffix_refl []
    | cons c s =>
      rw [notNext]
      split <;> exact List.suffix_refl (c :: s)

instance suffixed_numeral : Suffixed Numeral.parse := by
  unfold Numeral.parse
  infer_instance

/-! ## Repetition and recursion -/

instance suffixed_many (p : Parser α) [Suffixed p] : Suffixed (many p) where
  rest_suffix s := by
    have hwithin : ∀ (bound : List Char) (read : List α) (s : List Char),
        (manyWithin p bound read s).rest <:+ s := by
      intro bound
      induction bound with
      | nil =>
        intro read s
        simp only [manyWithin]
        cases h : p s with
        | ok a rest => exact suffix_of_ok h
        | failed e =>
          simp only
          split
          · exact suffix_of_failed h
          · exact List.suffix_refl s
      | cons c bound ih =>
        intro read s
        simp only [manyWithin]
        cases h : p s with
        | ok a rest => exact (ih _ rest).trans (suffix_of_ok h)
        | failed e =>
          simp only
          split
          · exact suffix_of_failed h
          · exact List.suffix_refl s
    exact hwithin s [] s

instance suffixed_sepBy (item : Parser α) (separator : Parser β) [Suffixed item]
    [Suffixed separator] : Suffixed (sepBy item separator) := by
  have hbehind : ∀ o : Option α, Suffixed (match o with
      | none       => pure []
      | some first => do
        let others ← many (do let _ ← separator; item)
        pure (first :: others) : Parser (List α)) := by
    intro o
    cases o <;> infer_instance
  exact suffixed_bind (optional item) _

theorem suffixed_fix {step : Parser α → Parser α}
    (hstep : ∀ p, Suffixed p → Suffixed (step p)) : Suffixed (fix step) where
  rest_suffix s := by
    obtain ⟨p, hp, hfix⟩ := fix_rec suffixed_fail hstep s
    rw [hfix]
    exact hp.rest_suffix s

/-! ## Whole texts -/

/-- An error about a whole text lies where the parser stopped. -/
theorem runAll_eq_error {p : Parser α} {text : List Char} {err : ParseError}
    (h : p.runAll text = .error err) : ∃ problem, err = .before text (p text).rest problem := by
  unfold runAll at h
  cases hp : p text with
  | ok a rest =>
    rw [hp] at h
    cases rest with
    | nil => cases h
    | cons c rest => exact ⟨.leftOver c, (Except.error.inj h).symm⟩
  | failed e =>
    rw [hp] at h
    exact ⟨.refused e.expected, (Except.error.inj h).symm⟩

end Phrasebook.Parser
