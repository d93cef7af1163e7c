import Phrasebook.Proofs.Store.Directory
/-!
# Loading a directory — the messages of its last definitions

A store that overwrites takes over a directory as a whole: if all resource files can be loaded, it
holds the last definition of each key and nothing else, whatever it held before and however the
system enumerates the directory.
-/
namespace Phrasebook

open LoadM

theorem Collected.size {ds : List Definition} {c : Collection} {events : List LoadEvent}
    (h : Collected ds c events) : c.entries.size = (ds.map Definition.key).toFinset.card := by
  have hmem : ∀ key, key ∈ c.entries.keys ↔ key ∈ ds.map Definition.key := by
    intro key
    have hrel := h.entries key
    rw [Std.TreeMap.mem_keys, Std.TreeMap.mem_iff_isSome_getElem?, ← not_iff_not,
      ← lastOf?_eq_none]
    generalize lastOf? ds key = d? at hrel ⊢
    generalize c.entries[key]? = found? at hrel ⊢
    cases hrel <;> simp
  rw [← Std.TreeMap.length_keys, ← List.toFinset_card_of_nodup Std.TreeMap.nodup_keys]
  congr 1
  ext key
  rw [List.mem_toFinset, List.mem_toFinset, hmem]

namespace Store

variable {st : Store}

theorem init_eq_ok {disk : Disk} {dir : String} :
    (∃ count, (st.init disk dir).result = .ok count) ↔
      ∃ c events, (Collection.ofDirectory st.duplicates disk dir).run [] = (.ok c, events) := by
  constructor
  · rintro ⟨count, h⟩
    exact run_of_install h
  · rintro ⟨c, events, h⟩
    exact ⟨_, congrArg Loaded.result (install_of_ok h)⟩

/-- Loading asks for nothing but the folder. -/
theorem init_congr {st' : Store} {disk disk' : Disk} {dir : String}
    (hpolicy : st.duplicates = st'.duplicates)
    (h : Folder.Same (disk.folder dir) (disk'.folder dir)) :
    (st'.init disk' dir).result = (st.init disk dir).result ∧
      (st'.init disk' dir).store.entries = (st.init disk dir).store.entries ∧
      (st'.init disk' dir).events = (st.init disk dir).events := by
  have hcollected : Collection.ofDirectory st'.duplicates disk' dir =
      Collection.ofDirectory st.duplicates disk dir := by
    rw [← hpolicy, Collection.ofDirectory, Collection.ofDirectory]
    generalize disk.folder dir = folder at h ⊢
    generalize disk'.folder dir = folder' at h ⊢
    cases h with
    | unreadable fault => rfl
    | enumerated hf h =>
      simp only [LoadM.ofExcept, pure_bind, Folder.files_eq_of_perm hf h]
  rw [init, init, hcollected]
  exact install_congr st st' _

end Store

/-- **Loading a directory is going through its definitions.**  It succeeds if the directory can be
read and all its resource files can be loaded.  Then each key has the entry of its last definition,
and no other key has one.  Neither the order in which the system enumerates the directory nor what
the store held before makes a difference. -/
theorem Store.init_overwrite {st : Store} (hpolicy : st.duplicates = .overwrite) (disk : Disk)
    (dir : String) :
    ((∃ count, (st.init disk dir).result = .ok count) ↔
      ∃ folder, disk.folder dir = .ok folder ∧ folder.IsLoadable) ∧
    (∀ count, (st.init disk dir).result = .ok count → ∃ folder ds,
      disk.folder dir = .ok folder ∧ folder.Defines dir ds ∧
      (∀ key, Option.Rel (fun d entry => d.leaf.Compiles entry) (lastOf? ds key)
        ((st.init disk dir).store.get? key)) ∧
      count = (ds.map Definition.key).toFinset.card) ∧
    ∀ (st' : Store) (disk' : Disk), st'.duplicates = .overwrite →
      Folder.Same (disk.folder dir) (disk'.folder dir) →
        (st'.init disk' dir).result = (st.init disk dir).result ∧
        (st'.init disk' dir).store.entries = (st.init disk dir).store.entries ∧
        (st'.init disk' dir).events = (st.init disk dir).events := by
  have hcollect : ∀ folder, disk.folder dir = .ok folder → folder.IsLoadable → ∃ ds c events,
      folder.Defines dir ds ∧
        (Collection.ofDirectory st.duplicates disk dir).run [] = (.ok c, events) ∧
        Collected ds c events := by
    rw [hpolicy]
    exact fun folder => Collection.ofDirectory_overwrite
  refine ⟨?_, fun count hcount => ?_, fun st' disk' hpolicy' h =>
    init_congr (hpolicy.trans hpolicy'.symm) h⟩
  · rw [init_eq_ok]
    constructor
    · rintro ⟨c, events, h⟩
      exact Collection.isLoadable_of_ofDirectory h
    · rintro ⟨folder, hfolder, h⟩
      obtain ⟨ds, c, events, -, hrun, -⟩ := hcollect folder hfolder h
      exact ⟨c, events, hrun⟩
  · obtain ⟨c, events, hrun⟩ := init_eq_ok.1 ⟨count, hcount⟩
    obtain ⟨folder, hfolder, h⟩ := Collection.isLoadable_of_ofDirectory hrun
    obtain ⟨ds, c, events, hds, hrun, hc⟩ := hcollect folder hfolder h
    rw [init, install_of_ok hrun] at hcount ⊢
    cases hcount
    exact ⟨folder, ds, hfolder, hds, hc.entries, hc.size⟩

/-- Two files that share a key, enumerated against the order of their names. -/
theorem Store.init_overwrite_two_files :
    let a := "locale \x7b a = \"y\" b = [\"z\"] \x7d".toUTF8
    let b := "locale \x7b a = \"x\" \x7d".toUTF8
    let folder : Folder :=
      [("b.hcl", .file (.ok b)), ("c.lua", .file (.ok a)), ("a.hcl", .file (.ok a))]
    let disk : Disk := ⟨fun _ => .ok folder, fun _ => true⟩
    let st : Store := { source := .cycle #[], entries := (∅ : Entries).insert "k" (.single ⟨[]⟩) }
    st.duplicates = .overwrite ∧ (st.init disk "en").result = .ok 2 ∧
      ∃ folder ds, disk.folder "en" = .ok folder ∧ folder.Defines "en" ds ∧
        (∀ key, Option.Rel (fun d entry => d.leaf.Compiles entry) (lastOf? ds key)
          ((st.init disk "en").store.get? key)) ∧
        2 = (ds.map Definition.key).toFinset.card := by
  intro a b folder disk st
  have hlists : folder.Lists resourceExtension [("a.hcl", .ok a), ("b.hcl", .ok b)] :=
    ⟨by decide, .swap _ _ _⟩
  have hresult : (st.init disk "en").result = .ok 2 := by
    rw [init, Collection.ofDirectory_of_folder rfl, Folder.files_of_lists hlists (by decide)]
    decide +kernel
  exact ⟨rfl, hresult, (init_overwrite rfl disk "en").2.1 2 hresult⟩

end Phrasebook
