import Phrasebook.Disk.Basic
import Phrasebook.Proofs.Text.Split
/-!
# Paths — the name that was joined to a directory is the last one on the path
-/
namespace Phrasebook

namespace Path

/-- The name of something in a directory, not a way to another one. -/
structure IsPlain (name : String) : Prop where
  ne_empty  : name ≠ ""
  ne_here   : name ≠ "."
  ne_up     : name ≠ ".."
  not_slash : '/' ∉ name.toList

variable {name : String}

/-- A plain name stands at the end of the path, alone or behind a slash. -/
theorem join_of_isPlain (h : IsPlain name) (dir : String) :
    join dir name = name ∨ ∃ front, (join dir name).toList = front ++ '/' :: name.toList := by
  have hslash : name.toList.head? ≠ some '/' := fun hhead => h.not_slash (List.mem_of_head? hhead)
  rw [join, if_neg hslash]
  split
  · exact .inl rfl
  · rename_i hlast
    obtain ⟨front, hfront⟩ := List.getLast?_eq_some_iff.1 hlast
    exact .inr ⟨front, by simp [hfront]⟩
  · exact .inr ⟨dir.toList, by simp⟩

theorem names_of_isPlain (h : IsPlain name) : names name = [name] := by
  rw [names, Text.split_of_not_mem h.not_slash]
  simp [h.ne_empty, h.ne_here]

theorem names_append {path : String} {front : List Char}
    (hpath : path.toList = front ++ '/' :: name.toList) :
    names path = names (String.ofList front) ++ names name := by
  rw [names, hpath, Text.split_append, List.map_append, List.filter_append, names, names,
    String.toList_ofList]

theorem fileName?_join (h : IsPlain name) (dir : String) :
    fileName? (join dir name) = some name := by
  have hlast : (names (join dir name)).getLast? = some name := by
    obtain hjoin | ⟨front, hjoin⟩ := join_of_isPlain h dir
    · rw [hjoin, names_of_isPlain h]
      rfl
    · rw [names_append hjoin, names_of_isPlain h, List.getLast?_append]
      rfl
  rw [fileName?, hlast]
  exact if_neg h.ne_up

end Path

end Phrasebook
