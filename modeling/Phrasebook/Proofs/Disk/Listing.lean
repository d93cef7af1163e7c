import Mathlib.Data.List.Nodup
import Mathlib.Data.String.Basic
import Phrasebook.Disk.Basic
/-!
# Listings — the files of a directory in the order of their names

The system enumerates a directory in an order of its own.  Sorting by name undoes that order, as no
name is there twice.
-/
namespace Phrasebook.Folder

def file? (extension : String) : String × Content → Option (String × Except IoFault ByteArray)
  | (_, .other)         => none
  | (name, .file bytes) =>
    if Path.extension? name = some extension then some (name, bytes) else none

/-- The regular files of a directory that have the extension, by name. -/
structure Lists (f : Folder) (extension : String)
    (files : List (String × Except IoFault ByteArray)) : Prop where
  sorted : files.Pairwise fun a b => a.1 ≤ b.1
  perm   : files.Perm (f.filterMap (file? extension))

/-- No name is there twice. -/
def IsDistinct (f : Folder) : Prop := (f.map Prod.fst).Nodup

instance (f : Folder) : Decidable f.IsDistinct := inferInstanceAs (Decidable (f.map Prod.fst).Nodup)

/-- The same directory, in whatever order the system enumerates it, or the same fault. -/
inductive Same : Except IoFault Folder → Except IoFault Folder → Prop
  | unreadable (fault : IoFault) : Same (.error fault) (.error fault)
  | enumerated {f g : Folder} (hf : f.IsDistinct) (h : f.Perm g) : Same (.ok f) (.ok g)

variable {f g : Folder} {extension : String}

theorem file?_eq_some {entry : String × Content} {name : String}
    {bytes : Except IoFault ByteArray} : file? extension entry = some (name, bytes) ↔
      entry = (name, .file bytes) ∧ Path.extension? name = some extension := by
  obtain ⟨name', content⟩ := entry
  cases content with
  | other => simp [file?]
  | file bytes' =>
    simp only [file?, Option.ite_none_right_eq_some, Option.some.injEq, Prod.mk.injEq,
      Content.file.injEq]
    constructor
    · rintro ⟨h, rfl, rfl⟩
      exact ⟨⟨rfl, rfl⟩, h⟩
    · rintro ⟨⟨rfl, rfl⟩, h⟩
      exact ⟨h, rfl, rfl⟩

theorem Lists.mem_iff {files : List (String × Except IoFault ByteArray)}
    (h : f.Lists extension files) {name : String} {bytes : Except IoFault ByteArray} :
    (name, bytes) ∈ files ↔
      (name, .file bytes) ∈ f ∧ Path.extension? name = some extension := by
  simp only [h.perm.mem_iff, List.mem_filterMap, file?_eq_some]
  constructor
  · rintro ⟨entry, hmem, rfl, hextension⟩
    exact ⟨hmem, hextension⟩
  · rintro ⟨hmem, hextension⟩
    exact ⟨_, hmem, rfl, hextension⟩

theorem pairwise_sorted (f : Folder) : f.sorted.Pairwise fun a b => a.1 ≤ b.1 := by
  have htrans : ∀ a b c : String × Content, decide (a.1 ≤ b.1) = true → decide (b.1 ≤ c.1) = true →
      decide (a.1 ≤ c.1) = true := by
    intro a b c hab hbc
    exact decide_eq_true (le_trans (of_decide_eq_true hab) (of_decide_eq_true hbc))
  have htotal : ∀ a b : String × Content, (decide (a.1 ≤ b.1) || decide (b.1 ≤ a.1)) = true := by
    intro a b
    simpa using le_total a.1 b.1
  exact (List.pairwise_mergeSort htrans htotal f).imp of_decide_eq_true

theorem lists_sorted (f : Folder) (extension : String) :
    f.Lists extension (f.sorted.filterMap (file? extension)) where
  sorted := by
    refine f.pairwise_sorted.filterMap _ fun a b hab file hfile file' hfile' => ?_
    rw [(file?_eq_some.1 hfile).1, (file?_eq_some.1 hfile').1] at hab
    exact hab
  perm := (List.mergeSort_perm f _).filterMap _

/-- The files that are read are the listed ones, each with its path. -/
theorem files_eq_map (f : Folder) (dir extension : String) :
    f.files dir extension = (f.sorted.filterMap (file? extension)).map
      fun file => (Path.join dir file.1, file.2) := by
  rw [List.map_filterMap, files]
  congr 1
  funext ⟨name, content⟩
  cases content with
  | other => rfl
  | file bytes =>
    simp only [file?]
    split <;> rfl

/-- The names of the regular files of a directory that have the extension, in ascending order. -/
structure Names (f : Folder) (extension : String) (names : List String) : Prop where
  ascending : names.Pairwise (· < ·)
  mem_iff   : ∀ name, name ∈ names ↔
    ∃ bytes, (name, .file bytes) ∈ f ∧ Path.extension? name = some extension

theorem names_of_lists {files : List (String × Except IoFault ByteArray)}
    (h : f.Lists extension files) (hf : f.IsDistinct) :
    f.Names extension (files.map Prod.fst) where
  ascending := by
    have hdistinct : (f.filterMap (file? extension)).Pairwise fun a b => a.1 ≠ b.1 := by
      refine (List.pairwise_map.1 hf).filterMap _ fun a b hab file hfile file' hfile' => ?_
      rw [(file?_eq_some.1 hfile).1, (file?_eq_some.1 hfile').1] at hab
      exact hab
    have hfiles : files.Pairwise fun a b => a.1 ≠ b.1 := h.perm.symm.pairwise hdistinct Ne.symm
    exact List.pairwise_map.2 (h.sorted.and hfiles |>.imp fun hab => lt_of_le_of_ne hab.1 hab.2)
  mem_iff name := by
    simp only [List.mem_map, Prod.exists, h.mem_iff, exists_and_right, exists_eq_right]

theorem Names.unique {names names' : List String} (h : f.Names extension names)
    (h' : f.Names extension names') : names = names' := by
  have hne : ∀ {a b : String}, a < b → a ≠ b := fun hab => hab.ne
  have hperm : names.Perm names' :=
    (List.perm_ext_iff_of_nodup (h.ascending.imp hne) (h'.ascending.imp hne)).2 fun name =>
      (h.mem_iff name).trans (h'.mem_iff name).symm
  exact hperm.eq_of_pairwise (fun _ _ _ _ hab hba => absurd hab hba.asymm) h.ascending h'.ascending

theorem Lists.of_perm {files : List (String × Except IoFault ByteArray)}
    (h : f.Lists extension files) (hperm : f.Perm g) : g.Lists extension files :=
  ⟨h.sorted, h.perm.trans (hperm.filterMap _)⟩

theorem Lists.unique {files files' : List (String × Except IoFault ByteArray)}
    (h : f.Lists extension files) (h' : f.Lists extension files') (hf : f.IsDistinct) :
    files = files' := by
  refine (h.perm.trans h'.perm.symm).eq_of_pairwise (fun a b ha hb hab hba => ?_) h.sorted h'.sorted
  -- two files of one name are one file
  have hentry : (a.1, Content.file a.2) = (b.1, Content.file b.2) :=
    List.inj_on_of_nodup_map hf (h.mem_iff.1 ha).1 (h'.mem_iff.1 hb).1 (le_antisymm hab hba)
  rw [Prod.mk.injEq, Content.file.injEq] at hentry
  exact Prod.ext hentry.1 hentry.2

theorem files_of_lists {files : List (String × Except IoFault ByteArray)}
    (h : f.Lists extension files) (hf : f.IsDistinct) (dir : String) :
    f.files dir extension = files.map fun file => (Path.join dir file.1, file.2) := by
  rw [files_eq_map, (f.lists_sorted extension).unique h hf]

theorem files_eq_of_perm (hf : f.IsDistinct) (h : f.Perm g) (dir extension : String) :
    f.files dir extension = g.files dir extension := by
  rw [files_of_lists ((g.lists_sorted extension).of_perm h.symm) hf, files_eq_map]

end Phrasebook.Folder
