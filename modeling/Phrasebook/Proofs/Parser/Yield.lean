import Phrasebook.ParseError
import Phrasebook.Proofs.Parser.Progress
/-!
# Yields — what kind of values a grammar makes

Where only what is made of a text matters, and not the text, every combinator has one rule.
-/
namespace Phrasebook.Parser

variable {α β : Type} {P : α → Prop} {Q : β → Prop} {p q : Parser α}

/-- Every success is of the kind `P`. -/
def Yields (p : Parser α) (P : α → Prop) : Prop := ∀ s a rest, p s = .ok a rest → P a

theorem yields_pure {a : α} (h : P a) : Yields (pure a) P := by
  intro s b rest hb
  rw [← (pure_eq_ok.1 hb).1]
  exact h

namespace Yields

theorem bind {f : α → Parser β} (hp : Yields p P) (hf : ∀ a, P a → Yields (f a) Q) :
    Yields (p >>= f) Q := by
  intro s b rest h
  obtain ⟨a, mid, ha, hb⟩ := bind_eq_ok.1 h
  exact hf a (hp s a mid ha) mid b rest hb

/-- Whatever the first part makes, the second makes what is wanted. -/
theorem behind (p : Parser α) {f : α → Parser β} (hf : ∀ a, Yields (f a) Q) :
    Yields (p >>= f) Q := by
  have hp : Yields p fun _ => True := fun _ _ _ _ => trivial
  exact hp.bind fun a _ => hf a

theorem orElse (hp : Yields p P) (hq : Yields q P) : Yields (p <|> q) P := by
  intro s a rest h
  obtain h | ⟨_, h⟩ := orElse_eq_ok.1 h
  · exact hp s a rest h
  · exact hq s a rest h

theorem commit (hp : Yields p P) : Yields (commit p) P := fun s a rest h =>
  hp s a rest (commit_eq_ok.1 h)

theorem expecting (hp : Yields p P) (x : Expectation) : Yields (expecting x p) P :=
  fun s a rest h => hp s a rest (expecting_eq_ok.1 h)

theorem manyWithin (hp : Yields p P) : ∀ (bound : List Char) (read : List α), (∀ a ∈ read, P a) →
    Yields (manyWithin p bound read) fun as => ∀ a ∈ as, P a
  | [], read, hread => by
    intro s as rest h
    simp only [Parser.manyWithin] at h
    split at h
    · cases h
      intro a ha
      obtain ha | ha := List.mem_append.1 ha
      · exact hread a (List.mem_reverse.1 ha)
      · rw [List.mem_singleton.1 ha]
        exact hp s _ rest ‹_›
    · split at h <;> cases h
      exact fun a ha => hread a (List.mem_reverse.1 ha)
  | _ :: bound, read, hread => by
    intro s as rest h
    simp only [Parser.manyWithin] at h
    split at h
    · exact manyWithin hp bound _ (List.forall_mem_cons.2 ⟨hp s _ _ ‹_›, hread⟩) _ as rest h
    · split at h <;> cases h
      exact fun a ha => hread a (List.mem_reverse.1 ha)

theorem many (hp : Yields p P) : Yields (many p) fun as => ∀ a ∈ as, P a := fun s =>
  manyWithin hp s [] (List.forall_mem_nil P) s

theorem fix {step : Parser α → Parser α} (hstep : ∀ p, Yields p P → Yields (step p) P) :
    Yields (fix step) P := fix_sound hstep

theorem runAll (hp : Yields p P) {text : List Char} {a : α} (h : p.runAll text = .ok a) : P a := by
  unfold Parser.runAll at h
  split at h <;> cases h
  exact hp text a [] ‹_›

end Yields

end Phrasebook.Parser
