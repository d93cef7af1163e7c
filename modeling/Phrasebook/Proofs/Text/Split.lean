import Phrasebook.Text.Split
/-!
# Splitting — the parts of a text that was joined
-/
namespace Phrasebook.Text

variable {separator : Char}

theorem split_ne_nil : ∀ cs, split separator cs ≠ []
  | []      => nofun
  | c :: cs => by
    rw [split]
    by_cases h : c = separator
    · rw [if_pos h]
      exact nofun
    · rw [if_neg h]
      split <;> exact nofun

theorem split_of_not_mem {cs : List Char} (h : separator ∉ cs) : split separator cs = [cs] := by
  induction cs with
  | nil => rfl
  | cons c cs ih =>
    rw [List.mem_cons, not_or] at h
    rw [split, if_neg (Ne.symm h.1), ih h.2]

theorem split_append (cs ds : List Char) :
    split separator (cs ++ separator :: ds) = split separator cs ++ split separator ds := by
  induction cs with
  | nil => simp [split]
  | cons c cs ih =>
    rw [List.cons_append, split, split, ih]
    by_cases h : c = separator
    · rw [if_pos h, if_pos h, List.cons_append]
    · rw [if_neg h, if_neg h]
      cases hparts : split separator cs with
      | nil => exact absurd hparts (split_ne_nil cs)
      | cons part parts => rfl

end Phrasebook.Text
