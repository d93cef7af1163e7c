import Mathlib.Data.Finset.Card
import Phrasebook.Proofs.Disk.Listing
import Phrasebook.Proofs.Resource.Leaves
import Phrasebook.Proofs.Store.Loading
/-!
# Directories — what their resource files define

The leaves of all resource files of a directory, in the order of the files' names and of their
places in the files, are the definitions of the directory.  Loading it is going through them: the
last definition of a key counts.
-/
namespace Phrasebook

open LoadM

/-! ## Definitions -/

/-- A leaf of the file at a path. -/
structure Definition where
  path : String
  key  : String
  leaf : Resource.Leaf

def Definition.ofLeaf (path : String) (leaf : String × Resource.Leaf) : Definition :=
  ⟨path, leaf.1, leaf.2⟩

/-- A key that is defined in the file at `first`, and the next time in the one at `second`. -/
structure Redefinition where
  key    : String
  first  : String
  second : String
deriving DecidableEq

def lastOf? (ds : List Definition) (key : String) : Option Definition :=
  ds.reverse.find? fun d => d.key == key

/-- The redefinition by the definition at a place, if its key was defined before. -/
def redefinitionAt? (ds : List Definition) (place : Nat) : Option Redefinition := do
  let d ← ds[place]?
  let earlier ← lastOf? (ds.take place) d.key
  pure ⟨d.key, earlier.path, d.path⟩

def redefinitions (ds : List Definition) : List Redefinition :=
  (List.range ds.length).filterMap (redefinitionAt? ds)

/-- The leaves of the files, one file after the other. -/
inductive Define : List (String × Except IoFault ByteArray) → List Definition → Prop
  | nil : Define [] []
  | cons {path : String} {content : Except IoFault ByteArray}
    {leaves : List (String × Resource.Leaf)} {files : List (String × Except IoFault ByteArray)}
    {ds : List Definition} (h : Resource.HasLeaves content leaves) (rest : Define files ds) :
    Define ((path, content) :: files) (leaves.map (.ofLeaf path) ++ ds)

/-- The definitions of the resource files of the directory at `dir`, in the order of the names of
the files and of the places in them. -/
def Folder.Defines (f : Folder) (dir : String) (ds : List Definition) : Prop :=
  ∃ files, f.Lists resourceExtension files ∧
    Define (files.map fun file => (Path.join dir file.1, file.2)) ds

section

variable {ds : List Definition} {d : Definition} {key : String}

theorem lastOf?_concat :
    lastOf? (ds ++ [d]) key = if d.key = key then some d else lastOf? ds key := by
  rw [lastOf?, List.reverse_concat, List.find?_cons]
  by_cases h : d.key = key
  · simp [h]
  · rw [beq_false_of_ne h, if_neg h]
    rfl

theorem lastOf?_eq_none : lastOf? ds key = none ↔ key ∉ ds.map Definition.key := by
  simp [lastOf?]

theorem redefinitions_concat : redefinitions (ds ++ [d]) = redefinitions ds ++
    ((lastOf? ds d.key).map fun earlier => ⟨d.key, earlier.path, d.path⟩).toList := by
  have hlast : redefinitionAt? (ds ++ [d]) ds.length =
      (lastOf? ds d.key).map fun earlier => ⟨d.key, earlier.path, d.path⟩ := by
    simp [redefinitionAt?, Option.map_eq_bind]
  -- a place looks back only, so the new definition changes nothing for those before it
  have hearlier : ∀ place ∈ List.range ds.length,
      redefinitionAt? (ds ++ [d]) place = redefinitionAt? ds place := by
    intro place hplace
    rw [List.mem_range] at hplace
    rw [redefinitionAt?, redefinitionAt?, List.getElem?_append_left hplace,
      List.take_append_of_le_length hplace.le]
  rw [redefinitions, List.length_append, List.length_singleton, List.range_succ,
    List.filterMap_append, List.filterMap_congr hearlier, List.filterMap_cons, hlast]
  cases lastOf? ds d.key <;> rfl

end

/-! ## Redefinitions -/

def LoadEvent.redefinition? : LoadEvent → Option Redefinition
  | .overwritten key first second => some ⟨key, first, second⟩
  | _                             => none

/-- The redefinitions among events, of which the newest is the first. -/
def reported (events : List LoadEvent) : List Redefinition :=
  (events.filterMap LoadEvent.redefinition?).reverse

theorem reported_append (more events : List LoadEvent) :
    reported (more ++ events) = reported events ++ reported more := by
  rw [reported, List.filterMap_append, List.reverse_append]
  rfl

theorem reported_skipped (items : List (String × Option Resource.Leaf)) :
    reported (skipped items) = [] := by
  rw [reported, List.reverse_eq_nil_iff, List.filterMap_eq_nil_iff]
  intro event h
  obtain ⟨key, -, rfl⟩ := List.mem_map.1 (List.mem_reverse.1 h)
  rfl

/-! ## Steps of loading -/

theorem Collection.addFile_eq_ok {policy : DuplicatePolicy} {c c' : Collection} {path : String}
    {content : Except IoFault ByteArray} {events events' : List LoadEvent} :
    (addFile policy c (path, content)).run events = (.ok c', events') ↔
      ∃ bytes items messages, content = .ok bytes ∧
        Resource.itemsOf (Resource.Tree.ofBytes bytes) = .ok items ∧
        CompileAll (items.filterMap Resource.message?) messages ∧
        (addAll policy path c messages).run
          (.loadedFile path messages.length :: (skipped items ++ events)) = (.ok c', events') := by
  unfold addFile
  simp only [run_bind_eq_ok, run_ofExcept_eq_ok, compile_eq_ok, run_note]
  constructor
  · rintro ⟨bytes, _, ⟨hcontent, rfl⟩, messages, _, ⟨items, hitems, hmessages, rfl⟩, _, _, ⟨⟩, h⟩
    exact ⟨bytes, items, messages, hcontent, hitems, hmessages, h⟩
  · rintro ⟨bytes, items, messages, hcontent, hitems, hmessages, h⟩
    exact ⟨bytes, _, ⟨hcontent, rfl⟩, messages, _, ⟨items, hitems, hmessages, rfl⟩, (), _,
      rfl, h⟩

theorem exists_compileAll {leaves : List (String × Resource.Leaf)} :
    (∃ messages, CompileAll leaves messages) ↔ ∀ leaf ∈ leaves, leaf.2.IsCompilable := by
  unfold CompileAll
  rw [exists_forall₂]
  refine forall₂_congr fun leaf _ => ?_
  rw [Resource.Leaf.isCompilable_iff]
  exact ⟨fun ⟨message, _, h⟩ => ⟨message.2, h⟩, fun ⟨entry, h⟩ => ⟨(leaf.1, entry), rfl, h⟩⟩

/-! ## Collecting -/

/-- The collection with one more message. -/
def Collection.put (c : Collection) (path : String) (message : String × Entry) : Collection :=
  ⟨c.entries.insert message.1 message.2, c.origins.insert message.1 path⟩

theorem Collection.run_add_overwrite (path : String) (c : Collection) (message : String × Entry)
    (events : List LoadEvent) : (add .overwrite path c message).run events =
      (.ok (c.put path message), (c.origins[message.1]?.map fun first =>
        .overwritten message.1 first path).toList ++ events) := by
  unfold add
  simp only
  cases c.origins[message.1]? <;> rfl

/-- A collection has the last definition of each key, and all redefinitions were reported. -/
structure Collected (ds : List Definition) (c : Collection) (events : List LoadEvent) : Prop where
  entries : ∀ key,
    Option.Rel (fun d entry => d.leaf.Compiles entry) (lastOf? ds key) c.entries[key]?
  origins : ∀ key, c.origins[key]? = (lastOf? ds key).map Definition.path
  noted   : reported events = redefinitions ds

theorem collected_empty : Collected [] {} [] where
  entries key := by
    rw [Std.TreeMap.getElem?_emptyc]
    exact .none
  origins _ := Std.TreeMap.getElem?_emptyc
  noted := rfl

namespace Collected

variable {ds : List Definition} {c : Collection} {events : List LoadEvent}

theorem read (h : Collected ds c events) (path : String) (keys : Nat)
    (items : List (String × Option Resource.Leaf)) :
    Collected ds c (.loadedFile path keys :: (skipped items ++ events)) where
  entries := h.entries
  origins := h.origins
  noted := by
    have hread : reported (skipped items ++ events) = redefinitions ds := by
      rw [reported_append, reported_skipped, List.append_nil, h.noted]
    rw [← hread]
    rfl

theorem put (h : Collected ds c events) {d : Definition} {entry : Entry}
    (hentry : d.leaf.Compiles entry) :
    Collected (ds ++ [d]) (c.put d.path (d.key, entry)) ((c.origins[d.key]?.map fun first =>
      .overwritten d.key first d.path).toList ++ events) where
  entries key := by
    rw [lastOf?_concat, Collection.put, Std.TreeMap.getElem?_insert]
    by_cases hkey : d.key = key
    · simpa [hkey] using Option.Rel.some hentry
    · simpa [hkey] using h.entries key
  origins key := by
    rw [lastOf?_concat, Collection.put, Std.TreeMap.getElem?_insert]
    by_cases hkey : d.key = key
    · simp [hkey]
    · simpa [hkey] using h.origins key
  noted := by
    rw [redefinitions_concat, ← h.noted, h.origins, reported_append]
    cases lastOf? ds d.key <;> rfl

theorem addAll {path : String} {leaves : List (String × Resource.Leaf)}
    {messages : List (String × Entry)} (hmessages : CompileAll leaves messages)
    (h : Collected ds c events) : ∃ c' events',
      (Collection.addAll .overwrite path c messages).run events = (.ok c', events') ∧
        Collected (ds ++ leaves.map (.ofLeaf path)) c' events' := by
  induction hmessages generalizing ds c events with
  | nil =>
    rw [List.map_nil, List.append_nil]
    exact ⟨c, events, rfl, h⟩
  | @cons leaf message leaves messages hmessage _ ih =>
    obtain ⟨key, entry⟩ := message
    obtain ⟨rfl, hentry⟩ := hmessage
    obtain ⟨c', events', hrun, hc'⟩ := ih (h.put (d := .ofLeaf path leaf) hentry)
    refine ⟨c', events', ?_, ?_⟩
    · rw [← hrun, Collection.addAll, List.foldlM_cons,
        run_bind_of_ok (Collection.run_add_overwrite path c (leaf.1, entry) events)]
      rfl
    · rw [List.map_cons, ← List.singleton_append, ← List.append_assoc]
      exact hc'

theorem addFile {path : String} {content : Except IoFault ByteArray}
    {leaves : List (String × Resource.Leaf)} (hleaves : Resource.HasLeaves content leaves)
    (hcompile : ∀ leaf ∈ leaves, leaf.2.IsCompilable) (h : Collected ds c events) : ∃ c' events',
      (Collection.addFile .overwrite c (path, content)).run events = (.ok c', events') ∧
        Collected (ds ++ leaves.map (.ofLeaf path)) c' events' := by
  obtain ⟨bytes, items, hcontent, hitems, rfl⟩ := Resource.hasLeaves_iff.1 hleaves
  obtain ⟨messages, hmessages⟩ := exists_compileAll.2 hcompile
  obtain ⟨c', events', hrun, hc'⟩ := addAll hmessages (h.read path messages.length items)
  exact ⟨c', events', Collection.addFile_eq_ok.2
    ⟨bytes, items, messages, hcontent, hitems, hmessages, hrun⟩, hc'⟩

theorem addFiles {files : List (String × Except IoFault ByteArray)} {more : List Definition}
    (hfiles : Define files more) (hcompile : ∀ d ∈ more, d.leaf.IsCompilable)
    (h : Collected ds c events) : ∃ c' events',
      (files.foldlM (Collection.addFile .overwrite) c).run events = (.ok c', events') ∧
        Collected (ds ++ more) c' events' := by
  induction hfiles generalizing ds c events with
  | nil =>
    rw [List.append_nil]
    exact ⟨c, events, rfl, h⟩
  | @cons path content leaves files more hleaves _ ih =>
    rw [List.forall_mem_append, List.forall_mem_map] at hcompile
    obtain ⟨mid, events', hfile, hmid⟩ := h.addFile hleaves hcompile.1
    obtain ⟨c', events'', hrest, hc'⟩ := ih hcompile.2 hmid
    refine ⟨c', events'', ?_, ?_⟩
    · rw [List.foldlM_cons, run_bind_of_ok hfile, hrest]
    · rw [← List.append_assoc]
      exact hc'

end Collected

/-! ## Whole directories -/

theorem Collection.isLoadable_of_addFile {policy : DuplicatePolicy} {c c' : Collection}
    {file : String × Except IoFault ByteArray} {events events' : List LoadEvent}
    (h : (addFile policy c file).run events = (.ok c', events')) : Resource.IsLoadable file.2 := by
  obtain ⟨bytes, items, messages, hcontent, hitems, hmessages, -⟩ := addFile_eq_ok.1 h
  exact ⟨_, Resource.hasLeaves_iff.2 ⟨bytes, items, hcontent, hitems, rfl⟩,
    exists_compileAll.1 ⟨messages, hmessages⟩⟩

theorem Collection.isLoadable_of_addFiles {policy : DuplicatePolicy} :
    ∀ {files : List (String × Except IoFault ByteArray)} {c c' : Collection}
      {events events' : List LoadEvent},
      (files.foldlM (addFile policy) c).run events = (.ok c', events') →
        ∀ file ∈ files, Resource.IsLoadable file.2
  | [], _, _, _, _, _ => List.forall_mem_nil _
  | file :: files, _, _, _, _, h => by
    rw [List.foldlM_cons, run_bind_eq_ok] at h
    obtain ⟨mid, events', hfile, hrest⟩ := h
    exact List.forall_mem_cons.2 ⟨isLoadable_of_addFile hfile, isLoadable_of_addFiles hrest⟩

theorem exists_define : ∀ {files : List (String × Except IoFault ByteArray)},
    (∀ file ∈ files, Resource.IsLoadable file.2) →
      ∃ ds, Define files ds ∧ ∀ d ∈ ds, d.leaf.IsCompilable
  | [], _ => ⟨[], .nil, List.forall_mem_nil _⟩
  | (path, content) :: files, h => by
    rw [List.forall_mem_cons] at h
    obtain ⟨leaves, hleaves, hcompile⟩ := h.1
    obtain ⟨ds, hds, hrest⟩ := exists_define h.2
    refine ⟨_, .cons hleaves hds, ?_⟩
    rw [List.forall_mem_append, List.forall_mem_map]
    exact ⟨hcompile, hrest⟩

theorem Collection.ofDirectory_of_folder {policy : DuplicatePolicy} {disk : Disk} {dir : String}
    {folder : Folder} (h : disk.folder dir = .ok folder) : ofDirectory policy disk dir =
      (folder.files dir resourceExtension).foldlM (addFile policy) {} := by
  rw [ofDirectory, h]
  rfl

theorem Collection.folder_of_ofDirectory {policy : DuplicatePolicy} {disk : Disk} {dir : String}
    {c : Collection} {events : List LoadEvent}
    (h : (ofDirectory policy disk dir).run [] = (.ok c, events)) :
    ∃ folder, disk.folder dir = .ok folder := by
  obtain ⟨folder, _, hfolder, -⟩ := run_bind_eq_ok.1 h
  exact ⟨folder, (run_ofExcept_eq_ok.1 hfolder).1⟩

/-- Every resource file of the directory can be loaded. -/
def Folder.IsLoadable (f : Folder) : Prop :=
  ∀ name content, (name, .file content) ∈ f → Path.extension? name = some resourceExtension →
    Resource.IsLoadable content

theorem Folder.isLoadable_iff {f : Folder} (dir : String) : f.IsLoadable ↔
    ∀ file ∈ f.files dir resourceExtension, Resource.IsLoadable file.2 := by
  rw [files_eq_map, List.forall_mem_map]
  constructor
  · rintro h ⟨name, content⟩ hfile
    rw [(f.lists_sorted _).mem_iff] at hfile
    exact h name content hfile.1 hfile.2
  · intro h name content hmem hextension
    exact h (name, content) ((f.lists_sorted _).mem_iff.2 ⟨hmem, hextension⟩)

theorem Collection.isLoadable_of_ofDirectory {policy : DuplicatePolicy} {disk : Disk} {dir : String}
    {c : Collection} {events : List LoadEvent}
    (h : (ofDirectory policy disk dir).run [] = (.ok c, events)) :
    ∃ folder, disk.folder dir = .ok folder ∧ folder.IsLoadable := by
  obtain ⟨folder, hfolder⟩ := folder_of_ofDirectory h
  rw [ofDirectory_of_folder hfolder] at h
  exact ⟨folder, hfolder, (folder.isLoadable_iff dir).2 (isLoadable_of_addFiles h)⟩

/-- A directory with nothing but loadable files is collected. -/
theorem Collection.ofDirectory_overwrite {disk : Disk} {dir : String} {folder : Folder}
    (hfolder : disk.folder dir = .ok folder) (h : folder.IsLoadable) :
    ∃ ds c events, folder.Defines dir ds ∧
      (ofDirectory .overwrite disk dir).run [] = (.ok c, events) ∧ Collected ds c events := by
  obtain ⟨ds, hds, hcompile⟩ := exists_define ((folder.isLoadable_iff dir).1 h)
  obtain ⟨c, events, hrun, hc⟩ := collected_empty.addFiles hds hcompile
  rw [← ofDirectory_of_folder hfolder] at hrun
  rw [Folder.files_eq_map] at hds
  exact ⟨ds, c, events, ⟨_, folder.lists_sorted _, hds⟩, hrun, hc⟩

end Phrasebook
