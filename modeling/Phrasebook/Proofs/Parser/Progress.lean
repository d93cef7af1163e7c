import Phrasebook.Proofs.Parser.Outcome
/-!
# Progress — which parsers read, and which hand back what they were given

`many_eq` asks that every success reads a character, `fix_eq` that the recursion does.  Both are
properties of the combinators: a sequence reads if one of its parts does, a choice if both of its
ways do.  They are instances, so that the parsers of a grammar find theirs by their shape.
-/
namespace Phrasebook.Parser

variable {α β : Type}

/-! ## No success lengthens the text -/

instance shrinks_pure (a : α) : Shrinks (pure a : Parser α) where
  length_le h := Nat.le_of_eq (congrArg List.length (pure_eq_ok.1 h).2.symm)

instance shrinks_abort : Shrinks (abort : Parser α) where
  length_le h := absurd h abort_ne_ok

instance shrinks_bind (p : Parser α) (f : α → Parser β) [Shrinks p] [∀ a, Shrinks (f a)] :
    Shrinks (p >>= f) where
  length_le h := by
    obtain ⟨a, mid, hps, h⟩ := bind_eq_ok.1 h
    exact Nat.le_trans (Shrinks.length_le h) (Shrinks.length_le hps)

instance shrinks_commit (p : Parser α) [Shrinks p] : Shrinks (commit p) where
  length_le h := Shrinks.length_le (commit_eq_ok.1 h)

instance shrinks_expecting (x : Expectation) (p : Parser α) [Shrinks p] :
    Shrinks (expecting x p) where
  length_le h := Shrinks.length_le (expecting_eq_ok.1 h)

instance shrinks_orElse (p q : Parser α) [Shrinks p] [Shrinks q] : Shrinks (p <|> q) where
  length_le h := by
    obtain h | ⟨_, h⟩ := orElse_eq_ok.1 h
    · exact Shrinks.length_le h
    · exact Shrinks.length_le h

instance shrinks_optional (p : Parser α) [Shrinks p] : Shrinks (optional p) where
  length_le h := by
    obtain ⟨a, _, h⟩ | ⟨_, _, rfl⟩ := optional_eq_ok.1 h
    · exact Shrinks.length_le h
    · exact Nat.le_refl _

instance shrinks_peek (p : Parser α) : Shrinks (peek p) where
  length_le h := Nat.le_of_eq (congrArg List.length (peek_eq_ok.1 h).2.symm)

instance shrinks_notNext (test : Char → Bool) : Shrinks (notNext test) where
  length_le h := Nat.le_of_eq (congrArg List.length (notNext_eq_ok.1 h).2.symm)

instance shrinks_literal (text : List Char) : Shrinks (literal text) where
  length_le h := by
    rw [literal_eq_ok.1 h, List.length_append]
    exact Nat.le_add_left _ _

instance shrinks_takeWhile (test : Char → Bool) : Shrinks (takeWhile test) where
  length_le h := by
    rw [(takeWhile_eq_ok.1 h).1, List.length_append]
    exact Nat.le_add_left _ _

theorem shrinks_manyWithin (p : Parser α) [Shrinks p] :
    ∀ (bound : List Char) (read as : List α) (s rest : List Char),
      manyWithin p bound read s = .ok as rest → rest.length ≤ s.length
  | bound, read, as, s, rest, h => by
    cases hps : p s with
    | ok a mid =>
      cases bound with
      | nil =>
        simp only [manyWithin, hps] at h
        cases h
        exact Shrinks.length_le hps
      | cons c bound =>
        simp only [manyWithin, hps] at h
        exact Nat.le_trans (shrinks_manyWithin p bound _ _ mid rest h) (Shrinks.length_le hps)
    | failed e =>
      cases bound <;> simp only [manyWithin, hps] at h <;> split at h <;> cases h <;>
        exact Nat.le_refl _

instance shrinks_many (p : Parser α) [Shrinks p] : Shrinks (many p) where
  length_le {s as rest} h := shrinks_manyWithin p s [] as s rest h

instance shrinks_sepBy (item : Parser α) (separator : Parser β) [Shrinks item] [Shrinks separator] :
    Shrinks (sepBy item separator) where
  length_le h := by
    obtain ⟨_, _, rfl⟩ | ⟨a, others, mid, _, ha, hm⟩ := sepBy_eq_ok.1 h
    · exact Nat.le_refl _
    · exact Nat.le_trans (Shrinks.length_le hm) (Shrinks.length_le ha)

/-! ## Every success reads a character -/

instance (priority := low) shrinks_of_consumes (p : Parser α) [Consumes p] : Shrinks p where
  length_le h := Nat.le_of_lt (Consumes.length_lt h)

instance consumes_pick (table : Char → Option α) : Consumes (pick table) where
  length_lt h := by
    obtain ⟨c, _, rfl⟩ := pick_eq_ok.1 h
    exact Nat.lt_succ_self _

instance consumes_satisfy (test : Char → Bool) : Consumes (satisfy test) := by
  unfold satisfy
  infer_instance

instance consumes_char (c : Char) : Consumes (char c) := by
  unfold char
  infer_instance

instance consumes_literal (c : Char) (text : List Char) : Consumes (literal (c :: text)) where
  length_lt h := by
    rw [literal_eq_ok.1 h, List.length_append, List.length_cons]
    omega

instance consumes_takeSome (test : Char → Bool) : Consumes (takeSome test) where
  length_lt h := by
    obtain ⟨hne, rfl, _⟩ := takeSome_eq_ok.1 h
    rw [List.length_append]
    exact Nat.lt_add_of_pos_left (List.length_pos_iff.2 hne)

instance consumes_bind (p : Parser α) (f : α → Parser β) [Consumes p] [∀ a, Shrinks (f a)] :
    Consumes (p >>= f) where
  length_lt h := by
    obtain ⟨a, mid, hps, h⟩ := bind_eq_ok.1 h
    exact Nat.lt_of_le_of_lt (Shrinks.length_le h) (Consumes.length_lt hps)

instance consumes_bind_right (p : Parser α) (f : α → Parser β) [Shrinks p] [∀ a, Consumes (f a)] :
    Consumes (p >>= f) where
  length_lt h := by
    obtain ⟨a, mid, hps, h⟩ := bind_eq_ok.1 h
    exact Nat.lt_of_lt_of_le (Consumes.length_lt h) (Shrinks.length_le hps)

instance consumes_commit (p : Parser α) [Consumes p] : Consumes (commit p) where
  length_lt h := Consumes.length_lt (commit_eq_ok.1 h)

instance consumes_expecting (x : Expectation) (p : Parser α) [Consumes p] :
    Consumes (expecting x p) where
  length_lt h := Consumes.length_lt (expecting_eq_ok.1 h)

instance consumes_orElse (p q : Parser α) [Consumes p] [Consumes q] : Consumes (p <|> q) where
  length_lt h := by
    obtain h | ⟨_, h⟩ := orElse_eq_ok.1 h
    · exact Consumes.length_lt h
    · exact Consumes.length_lt h

/-! ## Recursion -/

/-- On each text the recursive parser is one of the parsers that its steps make, so what every step
keeps holds of it. -/
theorem fix_rec {step : Parser α → Parser α} {Q : Parser α → Prop} (hfail : Q fail)
    (hstep : ∀ p, Q p → Q (step p)) (s : List Char) : ∃ p, Q p ∧ fix step s = p s := by
  have hwithin : ∀ bound : List Char, Q (fixWithin step bound) := by
    intro bound
    induction bound with
    | nil => exact hstep fail hfail
    | cons c bound ih => exact hstep (fixWithin step bound) ih
  exact ⟨fixWithin step s, hwithin s, rfl⟩

/-- What a step makes of every parser with a property of its successes, the recursive parser has. -/
theorem fix_sound {step : Parser α → Parser α} {Q : List Char → α → List Char → Prop}
    (hstep : ∀ p, (∀ s a rest, p s = .ok a rest → Q s a rest) →
      ∀ s a rest, step p s = .ok a rest → Q s a rest)
    (s : List Char) (a : α) (rest : List Char) (h : fix step s = .ok a rest) : Q s a rest := by
  obtain ⟨p, hp, hfix⟩ := fix_rec (fun s a rest h => absurd h fail_ne_ok) hstep s
  exact hp s a rest (hfix.symm.trans h)

/-! ## Agreement on short texts

What a combinator makes of parsers that agree below a length agrees below it too, and below the
next one behind a part that reads. -/

namespace AgreesBelow

variable {n : Nat} {p q : Parser α}

theorem refl (n : Nat) (p : Parser α) : AgreesBelow n p p := fun _ _ => rfl

theorem bind [Shrinks p] {f g : α → Parser β} (h : AgreesBelow n p q)
    (hf : ∀ a, AgreesBelow n (f a) (g a)) : AgreesBelow n (p >>= f) (q >>= g) := by
  intro t ht
  rw [bind_apply, bind_apply, ← h t ht]
  cases hpt : p t with
  | ok a mid => exact hf a mid (Nat.lt_of_le_of_lt (Shrinks.length_le hpt) ht)
  | failed e => rfl

/-- Behind a part that reads, what follows is asked about shorter texts only. -/
theorem behind (p : Parser α) [Consumes p] {f g : α → Parser β}
    (hf : ∀ a, AgreesBelow n (f a) (g a)) : AgreesBelow (n + 1) (p >>= f) (p >>= g) := by
  intro t ht
  rw [bind_apply, bind_apply]
  cases hpt : p t with
  | ok a mid =>
    exact hf a mid (Nat.lt_of_lt_of_le (Consumes.length_lt hpt) (Nat.le_of_lt_succ ht))
  | failed e => rfl

theorem orElse {p' q' : Parser α} (hp : AgreesBelow n p p') (hq : AgreesBelow n q q') :
    AgreesBelow n (p <|> q) (p' <|> q') := by
  intro t ht
  rw [orElse_apply, orElse_apply, hp t ht, hq t ht]

theorem commit (h : AgreesBelow n p q) : AgreesBelow n (commit p) (commit q) := by
  intro t ht
  rw [Parser.commit, Parser.commit, h t ht]

theorem expecting (h : AgreesBelow n p q) (x : Expectation) :
    AgreesBelow n (expecting x p) (expecting x q) := by
  intro t ht
  rw [Parser.expecting, Parser.expecting, h t ht]

theorem optional (h : AgreesBelow n p q) : AgreesBelow n (optional p) (optional q) := by
  intro t ht
  rw [Parser.optional, Parser.optional, h t ht]

theorem manyWithin [Shrinks p] (h : AgreesBelow n p q) :
    ∀ (bound : List Char) (read : List α),
      AgreesBelow n (manyWithin p bound read) (manyWithin q bound read)
  | [], read => by
    intro t ht
    simp only [Parser.manyWithin, h t ht]
  | _ :: bound, read => by
    intro t ht
    simp only [Parser.manyWithin, ← h t ht]
    cases hpt : p t with
    | ok a mid =>
      exact manyWithin h bound (a :: read) mid (Nat.lt_of_le_of_lt (Shrinks.length_le hpt) ht)
    | failed e => rfl

theorem many [Shrinks p] (h : AgreesBelow n p q) : AgreesBelow n (many p) (many q) :=
  fun t ht => manyWithin h t [] t ht

theorem sepBy {separator : Parser β} [Shrinks p] [Shrinks separator] (h : AgreesBelow n p q) :
    AgreesBelow n (sepBy p separator) (sepBy q separator) := by
  refine h.optional.bind fun o => ?_
  cases o with
  | none => exact refl n _
  | some a => exact (many ((refl n separator).bind fun _ => h)).bind fun _ => refl n _

end AgreesBelow

end Phrasebook.Parser
