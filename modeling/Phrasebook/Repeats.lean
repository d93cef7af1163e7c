/-!
# Repeats — sorted lists without them

In a sorted list equal elements are neighbours, so dropping the repeats among neighbours leaves each
element once.
-/
namespace Phrasebook

variable {α : Type} [DecidableEq α]

/-- A list in which no two neighbours are equal: of equal neighbours one is left. -/
def dropRepeats : List α → List α
  | []           => []
  | [a]          => [a]
  | a :: b :: as => if a = b then dropRepeats (b :: as) else a :: dropRepeats (b :: as)

theorem mem_dropRepeats {a : α} : ∀ {as : List α}, a ∈ dropRepeats as ↔ a ∈ as
  | []           => Iff.rfl
  | [_]          => Iff.rfl
  | b :: c :: as => by
    rw [dropRepeats]
    split
    · rename_i hbc
      rw [mem_dropRepeats, hbc]
      simp only [List.mem_cons, or_self_left]
    · simp only [List.mem_cons, mem_dropRepeats]

theorem dropRepeats_sublist : ∀ as : List α, (dropRepeats as).Sublist as
  | []           => .slnil
  | [a]          => .refl [a]
  | a :: b :: as => by
    rw [dropRepeats]
    split
    · exact (dropRepeats_sublist (b :: as)).cons a
    · exact (dropRepeats_sublist (b :: as)).cons_cons a

section

variable {r : α → α → Prop} {as : List α}

theorem nodup_dropRepeats (hr : ∀ a b, r a b → r b a → a = b) :
    ∀ {as : List α}, as.Pairwise r → (dropRepeats as).Nodup
  | [], _            => List.nodup_nil
  | [a], _           => List.pairwise_singleton _ a
  | a :: b :: as, h => by
    rw [List.pairwise_cons] at h
    rw [dropRepeats]
    split
    · exact nodup_dropRepeats hr h.2
    · rename_i hab
      refine List.nodup_cons.2 ⟨fun hmem => ?_, nodup_dropRepeats hr h.2⟩
      -- were `a` there once more, `b` would stand between two equals
      rcases List.mem_cons.1 (mem_dropRepeats.1 hmem) with rfl | hmem
      · exact hab rfl
      · exact hab (hr a b (h.1 b List.mem_cons_self) (List.rel_of_pairwise_cons h.2 hmem))

/-- What is left of a sorted list is in strict order. -/
theorem pairwise_dropRepeats (hr : ∀ a b, r a b → r b a → a = b) (h : as.Pairwise r) :
    (dropRepeats as).Pairwise fun a b => r a b ∧ a ≠ b :=
  (h.sublist (dropRepeats_sublist as)).and (nodup_dropRepeats hr h)

end

end Phrasebook
