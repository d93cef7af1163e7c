import Phrasebook.Parser.Basic
/-!
# Bounds that never bind — repetition and recursion as if they had no bound

`many` and `fix` run on a bound taken from their input.  Main statements: for a parser that reads a
character with every success the bound of `many` does not matter (`many_eq`), and for a `step` that
reads one before it comes back to itself (`Guarded`) `fix step` is a fixed point of `step`
(`fix_eq`).
-/
namespace Phrasebook.Parser

variable {α β : Type}

theorem bind_apply (p : Parser α) (f : α → Parser β) (s : List Char) :
    (p >>= f) s = match p s with
      | .ok a rest => f a rest
      | .failed e  => .failed e := rfl

/-- Every success reads a character. -/
class Consumes (p : Parser α) : Prop where
  length_lt : ∀ {s a rest}, p s = .ok a rest → rest.length < s.length

theorem manyWithin_nil_of_consumes (p : Parser α) [Consumes p] (bound : List Char)
    (read : List α) : manyWithin p bound read [] = manyWithin p [] read [] := by
  cases bound with
  | nil => rfl
  | cons c bound =>
    simp only [manyWithin]
    cases h : p [] with
    | ok a rest => exact absurd (Consumes.length_lt h) (Nat.not_lt_zero _)
    | failed e => rfl

/-- A bound as long as the input is as good as any longer one. -/
theorem manyWithin_congr_bound (p : Parser α) [Consumes p] :
    ∀ (b b' : List Char) (read : List α) (s : List Char),
      s.length ≤ b.length → s.length ≤ b'.length → manyWithin p b read s = manyWithin p b' read s
  | [], b', read, s, hb, _ => by
    obtain rfl : s = [] := List.eq_nil_of_length_eq_zero (Nat.le_zero.1 hb)
    exact (manyWithin_nil_of_consumes p b' read).symm
  | c :: b, [], read, s, _, hb' => by
    obtain rfl : s = [] := List.eq_nil_of_length_eq_zero (Nat.le_zero.1 hb')
    exact manyWithin_nil_of_consumes p (c :: b) read
  | c :: b, c' :: b', read, s, hb, hb' => by
    simp only [manyWithin]
    cases h : p s with
    | ok a rest =>
      have := Consumes.length_lt h
      simp only [List.length_cons] at hb hb'
      exact manyWithin_congr_bound p b b' _ _ (by omega) (by omega)
    | failed e => rfl

theorem manyWithin_read (p : Parser α) : ∀ (bound : List Char) (read : List α) (s : List Char),
    manyWithin p bound read s = match manyWithin p bound [] s with
      | .ok as rest => .ok (read.reverse ++ as) rest
      | .failed e   => .failed e
  | [], read, s => by
    simp only [manyWithin]
    cases p s with
    | ok a rest => simp
    | failed e => cases h : e.firm <;> simp [h]
  | _ :: bound, read, s => by
    simp only [manyWithin]
    cases p s with
    | ok a rest =>
      simp only
      rw [manyWithin_read p bound (a :: read), manyWithin_read p bound [a]]
      cases manyWithin p bound [] rest <;> simp
    | failed e => cases h : e.firm <;> simp [h]

/-- One round of a repetition, and the rounds behind it. -/
theorem many_eq (p : Parser α) [Consumes p] (s : List Char) :
    many p s = match p s with
      | .ok a rest =>
        match many p rest with
        | .ok as rest => .ok (a :: as) rest
        | .failed e   => .failed e
      | .failed e  => if e.firm then .failed e else .ok [] s := by
  cases s with
  | nil =>
    simp only [many, manyWithin]
    cases h : p [] with
    | ok a rest => exact absurd (Consumes.length_lt h) (Nat.not_lt_zero _)
    | failed e => rfl
  | cons c s =>
    simp only [many, manyWithin]
    cases h : p (c :: s) with
    | ok a rest =>
      have := Consumes.length_lt h
      simp only [List.length_cons] at this
      simp only
      rw [manyWithin_read, manyWithin_congr_bound p s rest [] rest (by omega) (Nat.le_refl _)]
      cases manyWithin p rest [] rest <;> rfl
    | failed e => rfl

/-- No success leaves a longer text than it began with. -/
class Shrinks (p : Parser α) : Prop where
  length_le : ∀ {s a rest}, p s = .ok a rest → rest.length ≤ s.length

instance shrinks_fail : Shrinks (fail : Parser α) where
  length_le h := by cases h

/-- Two parsers that answer alike on every text shorter than `n`. -/
def AgreesBelow (n : Nat) (p q : Parser α) : Prop :=
  ∀ t : List Char, t.length < n → p t = q t

theorem agreesBelow_zero (p q : Parser α) : AgreesBelow 0 p q :=
  fun _ ht => absurd ht (Nat.not_lt_zero _)

/-- `step` comes back to its argument only behind a character that it has read: of two arguments
that agree on shorter texts it makes the same.  An argument that hands back more than it was given
would escape this, so the arguments are those that do not. -/
class Guarded (step : Parser α → Parser α) : Prop where
  shrinks : ∀ p [Shrinks p], Shrinks (step p)
  below   : ∀ n p q [Shrinks p], AgreesBelow n p q → AgreesBelow (n + 1) (step p) (step q)

theorem shrinks_fixWithin (step : Parser α → Parser α) [Guarded step] :
    ∀ bound, Shrinks (fixWithin step bound)
  | []         => Guarded.shrinks fail
  | _ :: bound =>
    have := shrinks_fixWithin step bound
    Guarded.shrinks (fixWithin step bound)

instance shrinks_fix (step : Parser α → Parser α) [Guarded step] : Shrinks (fix step) where
  length_le {s _ _} h := (shrinks_fixWithin step s).length_le h

/-- A bound as long as the input is as good as any longer one. -/
theorem fixWithin_congr_bound (step : Parser α → Parser α) [Guarded step] :
    ∀ (b b' s : List Char),
      s.length ≤ b.length → s.length ≤ b'.length → fixWithin step b s = fixWithin step b' s
  | [], [], _, _, _ => rfl
  | [], _ :: b', s, hb, _ =>
    Guarded.below 0 fail (fixWithin step b') (agreesBelow_zero _ _) s (Nat.lt_succ_of_le hb)
  | _ :: b, [], s, _, hb' =>
    have := shrinks_fixWithin step b
    Guarded.below 0 (fixWithin step b) fail (agreesBelow_zero _ _) s (Nat.lt_succ_of_le hb')
  | _ :: b, _ :: b', s, hb, hb' => by
    simp only [List.length_cons] at hb hb'
    have := shrinks_fixWithin step b
    exact Guarded.below s.length (fixWithin step b) (fixWithin step b')
      (fun t ht => fixWithin_congr_bound step b b' t (by omega) (by omega)) s (Nat.lt_succ_self _)

/-- The recursive parser is what its step makes of it. -/
theorem fix_eq (step : Parser α → Parser α) [Guarded step] (s : List Char) :
    fix step s = step (fix step) s := by
  cases s with
  | nil => exact Guarded.below 0 fail (fix step) (agreesBelow_zero _ _) [] (Nat.lt_succ_self _)
  | cons c s =>
    have := shrinks_fixWithin step s
    refine Guarded.below (s.length + 1) (fixWithin step s) (fix step) (fun t ht => ?_) (c :: s)
      (Nat.lt_succ_self _)
    exact fixWithin_congr_bound step s t t (by omega) (Nat.le_refl _)

end Phrasebook.Parser
