import Phrasebook.Proofs.Parser.Progress
/-!
# Soft parsers — those that never end the whole parse

Without `commit` and `abort` in it, a parser that does not succeed gives way.
-/
namespace Phrasebook.Parser

variable {α β : Type}

/-- Every failure is soft. -/
class Soft (p : Parser α) : Prop where
  firm_eq : ∀ {s e}, p s = .failed e → e.firm = false

theorem refuses_of_ne_ok {p : Parser α} [Soft p] {s : List Char}
    (h : ∀ a rest, p s ≠ .ok a rest) : Refuses p s := by
  cases hps : p s with
  | ok a rest => exact absurd hps (h a rest)
  | failed e => exact ⟨e, hps, Soft.firm_eq hps⟩

instance soft_pure (a : α) : Soft (pure a : Parser α) where
  firm_eq h := nomatch h

instance soft_fail : Soft (fail : Parser α) where
  firm_eq h := by cases h; rfl

instance soft_ite (c : Prop) [Decidable c] (p q : Parser α) [Soft p] [Soft q] :
    Soft (if c then p else q) := by
  split <;> infer_instance

instance soft_bind (p : Parser α) (f : α → Parser β) [Soft p] [∀ a, Soft (f a)] :
    Soft (p >>= f) where
  firm_eq {s e} h := by
    rw [bind_apply] at h
    cases hps : p s with
    | ok a mid =>
      rw [hps] at h
      exact Soft.firm_eq h
    | failed e' =>
      rw [hps] at h
      cases h
      exact Soft.firm_eq hps

instance soft_orElse (p q : Parser α) [Soft p] [Soft q] : Soft (p <|> q) where
  firm_eq {s e} h := by
    rw [orElse_apply] at h
    cases hps : p s with
    | ok a mid => rw [hps] at h; cases h
    | failed e' =>
      rw [hps] at h
      simp only [Soft.firm_eq hps, Bool.false_eq_true, if_false] at h
      exact Soft.firm_eq h

instance soft_pick (table : Char → Option α) : Soft (pick table) where
  firm_eq {s e} h := by
    cases s with
    | nil => cases h; rfl
    | cons c s =>
      simp only [pick] at h
      split at h
      · cases h
      · cases h; rfl

instance soft_satisfy (test : Char → Bool) : Soft (satisfy test) := by
  unfold satisfy
  infer_instance

instance soft_char (c : Char) : Soft (char c) := by
  unfold char
  infer_instance

instance soft_literal (text : List Char) : Soft (literal text) where
  firm_eq {s e} h := by
    unfold literal at h
    split at h
    · cases h
    · cases h; rfl

instance soft_takeSome (test : Char → Bool) : Soft (takeSome test) where
  firm_eq {s e} h := by
    rw [takeSome_apply] at h
    split at h
    · cases h; rfl
    · cases h

instance soft_notNext (test : Char → Bool) : Soft (notNext test) where
  firm_eq {s e} h := by
    cases s with
    | nil => cases h
    | cons c s =>
      rw [notNext] at h
      split at h
      · cases h; rfl
      · cases h

instance soft_takeWhile (test : Char → Bool) : Soft (takeWhile test) where
  firm_eq h := nomatch h

instance soft_optional (p : Parser α) [Soft p] : Soft (optional p) where
  firm_eq {s e} h := by
    unfold optional at h
    cases hps : p s with
    | ok a mid => rw [hps] at h; cases h
    | failed e' =>
      rw [hps] at h
      simp only [Soft.firm_eq hps, Bool.false_eq_true, if_false] at h
      cases h

/-- A repetition ends where its parser gives way. -/
theorem exists_manyWithin (p : Parser α) [Soft p] : ∀ (bound : List Char) (read : List α)
    (s : List Char), ∃ as rest, manyWithin p bound read s = .ok as rest
  | [], read, s => by
    simp only [manyWithin]
    cases hps : p s with
    | ok a rest => exact ⟨_, _, rfl⟩
    | failed e => exact ⟨_, _, if_neg (by rw [Soft.firm_eq hps]; decide)⟩
  | _ :: bound, read, s => by
    simp only [manyWithin]
    cases hps : p s with
    | ok a rest => exact exists_manyWithin p bound (a :: read) rest
    | failed e => exact ⟨_, _, if_neg (by rw [Soft.firm_eq hps]; decide)⟩

instance soft_many (p : Parser α) [Soft p] : Soft (many p) where
  firm_eq {s e} h := by
    obtain ⟨as, rest, hmany⟩ := exists_manyWithin p s [] s
    cases h.symm.trans hmany

theorem soft_fix {step : Parser α → Parser α} (hstep : ∀ p, Soft p → Soft (step p)) :
    Soft (fix step) where
  firm_eq {s e} h := by
    obtain ⟨p, hp, hfix⟩ := fix_rec soft_fail hstep s
    exact hp.firm_eq (hfix.symm.trans h)

end Phrasebook.Parser
