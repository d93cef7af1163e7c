import Phrasebook.Command.Check
import Phrasebook.Proofs.Disk.Path
import Phrasebook.Proofs.Store.Directory
/-!
# `check` — an error where loading fails, a warning where lint has one

Checking a locale directory parses each file by itself before it loads them all.  A file that does
not parse cannot be loaded either, so the two ways to an error are one: a directory has errors
exactly if its locale cannot be loaded.
-/
namespace Phrasebook

open Command

theorem Store.lint_congr {st st' : Store} (hentries : st.entries = st'.entries)
    (hregistry : st.registry = st'.registry) (hlanguage : st.language = st'.language) :
    st.lint = st'.lint := by
  rw [lint, lint, hentries, hregistry, hlanguage]

/-- A locale in a directory of its own, directly below a root. -/
structure Place where
  root  : String
  name  : String
  plain : Path.IsPlain name

namespace Place

def dir (p : Place) : String := Path.join p.root p.name

/-- An attempt to load the locale into a store that has nothing but the root. -/
def load (p : Place) (source : Source) (disk : Disk) : Loaded :=
  Store.load { source := source, root := p.root } disk p.name

/-- The directory can be read, and so can its resource files. -/
def IsReadable (p : Place) (disk : Disk) : Prop :=
  ∃ folder, disk.folder p.dir = .ok folder ∧
    ∀ name content, (name, .file content) ∈ folder →
      Path.extension? name = some resourceExtension → ∃ bytes, content = .ok bytes

end Place

namespace Command

/-! ## Files that do not parse -/

/-- The file can be read, but it does not parse, or it has no messages to be found. -/
def IsRefused (file : String × Except IoFault ByteArray) (e : ParseError) : Prop :=
  ∃ bytes, file.2 = .ok bytes ∧ (Resource.Tree.ofBytes bytes).bind Resource.Tree.flatten = .error e

/-- One error for each of the files that is refused, in their order. -/
inductive Refusals : List (String × Except IoFault ByteArray) → List String → Prop
  | nil : Refusals [] []
  | parsed {file : String × Except IoFault ByteArray}
    {files : List (String × Except IoFault ByteArray)} {errors : List String}
    (h : ∀ e, ¬ IsRefused file e) (rest : Refusals files errors) : Refusals (file :: files) errors
  | refused {file : String × Except IoFault ByteArray}
    {files : List (String × Except IoFault ByteArray)} {errors : List String} {e : ParseError}
    (h : IsRefused file e) (rest : Refusals files errors) :
    Refusals (file :: files) ((file.1 ++ ": " ++ e.message) :: errors)

theorem Refusals.eq_nil_iff {files : List (String × Except IoFault ByteArray)}
    {errors : List String} (h : Refusals files errors) :
    errors = [] ↔ ∀ file ∈ files, ∀ e, ¬ IsRefused file e := by
  induction h with
  | nil => simp
  | parsed h _ ih =>
    rw [ih, List.forall_mem_cons]
    exact ⟨fun hrest => ⟨h, hrest⟩, And.right⟩
  | refused h _ _ =>
    rw [List.forall_mem_cons]
    exact ⟨nofun, fun hall => absurd h (hall.1 _)⟩

/-- What loading takes from a file is not there if the file is refused. -/
theorem not_isLoadable_of_isRefused {file : String × Except IoFault ByteArray} {e : ParseError}
    (h : IsRefused file e) : ¬ Resource.IsLoadable file.2 := by
  rintro ⟨leaves, hleaves, -⟩
  obtain ⟨bytes, items, hcontent, hitems, -⟩ := Resource.hasLeaves_iff.1 hleaves
  obtain ⟨bytes', hcontent', hrefused⟩ := h
  obtain rfl : bytes = bytes' := Except.ok.inj (hcontent.symm.trans hcontent')
  cases htree : Resource.Tree.ofBytes bytes with
  | error e' =>
    rw [htree] at hitems
    cases hitems
  | ok tree =>
    rw [htree] at hitems hrefused
    have hflatten : tree.flatten = tree.items.map (List.filterMap Resource.message?) := rfl
    have hok : tree.items = .ok items := hitems
    have herror : tree.flatten = .error e := hrefused
    rw [hflatten, hok] at herror
    cases herror

theorem exists_badFiles : ∀ {files : List (String × Except IoFault ByteArray)},
    (∀ file ∈ files, ∃ bytes, file.2 = .ok bytes) →
      ∃ bad, badFiles files = .ok bad ∧ Refusals files (bad.map BadFile.message)
  | [], _ => ⟨[], rfl, .nil⟩
  | (path, content) :: files, h => by
    rw [List.forall_mem_cons] at h
    obtain ⟨⟨bytes, rfl⟩, hfiles⟩ := h
    obtain ⟨bad, hbad, hrefusals⟩ := exists_badFiles hfiles
    refine ⟨(checkFile path bytes).toList ++ bad, by rw [badFiles, hbad]; rfl, ?_⟩
    rw [checkFile]
    split
    · rename_i leaves hparsed
      refine .parsed (fun e he => ?_) hrefusals
      obtain ⟨_, ⟨⟩, hrefused⟩ := he
      cases hparsed.symm.trans hrefused
    · rename_i e hrefused
      exact .refused ⟨bytes, rfl, hrefused⟩ hrefusals

/-! ## One directory -/

/-- The findings tell what comes of loading the files, and which of them are refused. -/
structure Findings.Tells (f : Findings) (files : List (String × Except IoFault ByteArray))
    (loaded : Loaded) : Prop where
  fails   : f.errors ≠ [] ↔ ∃ e, loaded.result = .error e
  clean   : ∀ count, loaded.result = .ok count →
    f.keys = count ∧ f.warnings = loaded.store.lint.map LintWarning.message
  refused : (∃ file ∈ files, ∃ e, IsRefused file e) → Refusals files f.errors
  parsed  : (∀ file ∈ files, ∀ e, ¬ IsRefused file e) → ∀ e, loaded.result = .error e →
    f.errors = [e.message]

theorem directoryLanguage_dir (p : Place) : directoryLanguage p.dir = Language.ofCode p.name := by
  rw [directoryLanguage, Place.dir, Path.fileName?_join p.plain]

/-- The store that is checked has the messages of the one that is loaded, and its functions. -/
theorem load_eq_init (p : Place) (source : Source) (disk : Disk) :
    let checked := Store.init { source := .cycle #[], language := directoryLanguage p.dir } disk p.dir
    (p.load source disk).result = checked.result ∧
      (p.load source disk).store.lint = checked.store.lint := by
  intro checked
  let fresh : Store := { source := source, root := p.root }
  let read := (fresh.setLanguage (Language.ofCode p.name)).init disk p.dir
  obtain ⟨hresult, hstore⟩ := @Store.load_of_no_scripts fresh rfl disk p.name
  obtain ⟨hresult', hentries, -⟩ := Store.install_congr
    { source := .cycle #[], language := directoryLanguage p.dir }
    (fresh.setLanguage (Language.ofCode p.name)) (Collection.ofDirectory .overwrite disk p.dir)
  have hread : read.store = _ := Store.install_store _ _
  have hchecked : checked.store = _ := Store.install_store _ _
  have hregistry : read.store.registry = checked.store.registry := by
    rw [hread, hchecked]
    rfl
  have hlanguage : read.store.language = checked.store.language := by
    rw [hread, hchecked, directoryLanguage_dir]
    rfl
  have hlint : read.store.lint = checked.store.lint :=
    Store.lint_congr hentries hregistry hlanguage
  exact ⟨hresult.trans hresult', (congrArg Store.lint hstore).trans hlint⟩

theorem checkLoad_tells (p : Place) (source : Source) (disk : Disk)
    {files : List (String × Except IoFault ByteArray)}
    (hfiles : ∀ file ∈ files, ∀ e, ¬ IsRefused file e) :
    (checkLoad disk p.dir).Tells files (p.load source disk) := by
  obtain ⟨hresult, hlint⟩ := load_eq_init p source disk
  rw [checkLoad]
  split
  · rename_i count hok
    rw [hok] at hresult
    refine ⟨?_, ?_, ?_, ?_⟩
    · simp [hresult]
    · intro count' hcount
      rw [hresult] at hcount
      exact ⟨Except.ok.inj hcount, by rw [hlint]⟩
    · rintro ⟨file, hfile, e, he⟩
      exact absurd he (hfiles file hfile e)
    · intro _ e he
      cases hresult.symm.trans he
  · rename_i e herror
    rw [herror] at hresult
    refine ⟨?_, ?_, ?_, ?_⟩
    · simp [hresult]
    · intro count hcount
      cases hresult.symm.trans hcount
    · rintro ⟨file, hfile, e, he⟩
      exact absurd he (hfiles file hfile e)
    · intro _ e' he'
      cases hresult.symm.trans he'
      rfl

theorem checkDirectory_tells {p : Place} {disk : Disk} (hreadable : p.IsReadable disk)
    (source : Source) : ∃ folder findings, disk.folder p.dir = .ok folder ∧
      checkDirectory disk p.dir = .ok findings ∧
      findings.Tells (folder.files p.dir resourceExtension) (p.load source disk) := by
  obtain ⟨folder, hfolder, hcontents⟩ := hreadable
  have hfiles : ∀ file ∈ folder.files p.dir resourceExtension, ∃ bytes, file.2 = .ok bytes := by
    rw [Folder.files_eq_map, List.forall_mem_map]
    rintro ⟨name, content⟩ hfile
    rw [(folder.lists_sorted _).mem_iff] at hfile
    exact hcontents name content hfile.1 hfile.2
  obtain ⟨bad, hbad, hrefusals⟩ := exists_badFiles hfiles
  have hcheck : checkDirectory disk p.dir = if bad.isEmpty then .ok (checkLoad disk p.dir) else
      .ok { dir := p.dir, errors := bad.map BadFile.message
            diagnostics := bad.map BadFile.diagnostic } := by
    rw [checkDirectory, hfolder]
    show (badFiles _ >>= fun bad => _) = _
    rw [hbad]
    show ite _ _ _ = _
    split <;> rfl
  have hnone := hrefusals.eq_nil_iff
  cases bad with
  | nil => exact ⟨folder, _, hfolder, hcheck, checkLoad_tells p source disk (hnone.1 rfl)⟩
  | cons file bad =>
    have hrefused : ¬ ∀ file ∈ folder.files p.dir resourceExtension, ∀ e, ¬ IsRefused file e :=
      fun h => List.cons_ne_nil _ _ (hnone.2 h)
    -- what one file lacks, the whole directory cannot be loaded without
    have hfails : ∀ count, (p.load source disk).result ≠ .ok count := by
      intro count hcount
      rw [(load_eq_init p source disk).1] at hcount
      obtain ⟨c, events, hrun⟩ := Store.run_of_install hcount
      obtain ⟨folder', hfolder', hloadable⟩ := Collection.isLoadable_of_ofDirectory hrun
      obtain rfl : folder = folder' := Except.ok.inj (hfolder.symm.trans hfolder')
      refine hrefused fun file hfile e he => ?_
      exact not_isLoadable_of_isRefused he ((folder.isLoadable_iff p.dir).1 hloadable file hfile)
    refine ⟨folder, _, hfolder, hcheck, ⟨fun _ => ?_, fun _ => List.cons_ne_nil _ _⟩,
      fun count hcount => absurd hcount (hfails count), fun _ => hrefusals,
      fun hparsed => absurd hparsed hrefused⟩
    cases hresult : (p.load source disk).result with
    | error e => exact ⟨e, rfl⟩
    | ok count => exact absurd hresult (hfails count)

/-! ## The whole command -/

theorem total_length_eq {α : Type} (items : Findings → List α) (all : List Findings) :
    total (fun f => (items f).length) all = (all.flatMap items).length := by
  rw [total, List.length_flatMap, List.sum_eq_foldl, List.foldl_map]

theorem total_length_pos {α : Type} {items : Findings → List α} {all : List Findings} :
    0 < total (fun f => (items f).length) all ↔ ∃ f ∈ all, items f ≠ [] := by
  rw [total_length_eq, List.length_pos_iff, Ne, List.flatMap_eq_nil_iff]
  simp only [not_forall, exists_prop]

theorem checkCode_eq_dataError {strict : Bool} {all : List Findings} :
    checkCode strict all = dataError ↔
      ∃ f ∈ all, f.errors ≠ [] ∨ strict = true ∧ f.warnings ≠ [] := by
  have hsplit : (∃ f ∈ all, f.errors ≠ [] ∨ strict = true ∧ f.warnings ≠ []) ↔
      0 < errorCount all ∨ strict = true ∧ 0 < warningCount all := by
    rw [errorCount, warningCount, total_length_pos, total_length_pos]
    simp only [and_or_left, exists_or, and_left_comm, exists_and_left]
  rw [hsplit, checkCode]
  split <;> simp_all [dataError, success]

theorem checkCode_eq_success {strict : Bool} {all : List Findings} :
    checkCode strict all = success ↔ checkCode strict all ≠ dataError := by
  unfold checkCode
  split <;> decide

theorem Findings.Tells.notInOrder {f : Findings} {loaded : Loaded}
    {files : List (String × Except IoFault ByteArray)} (h : f.Tells files loaded) (strict : Bool) :
    (f.errors ≠ [] ∨ strict = true ∧ f.warnings ≠ []) ↔
      (∃ e, loaded.result = .error e) ∨ strict = true ∧ loaded.store.lint ≠ [] := by
  rw [h.fails]
  cases hresult : loaded.result with
  | error e => simp
  | ok count => simp [(h.clean count hresult).2]

end Command

/-- **Checking is loading.**  The findings about each directory are what comes of loading its
locale; files that are refused, if there are any, are reported one by one.  So the data is not in
order exactly if a locale cannot be loaded, or, for a strict check, has a warning. -/
theorem CheckOptions.run_tells {disk : Disk} {places : List Place}
    (hreadable : ∀ p ∈ places, p.IsReadable disk) (json strict : Bool) (source : Source) :
    (∀ p ∈ places, ∃ folder findings, disk.folder p.dir = .ok folder ∧
      checkDirectory disk p.dir = .ok findings ∧
      findings.Tells (folder.files p.dir resourceExtension) (p.load source disk)) ∧
    ∃ outcome, CheckOptions.run ⟨places.map Place.dir, json, strict⟩ disk = .ok outcome ∧
      (outcome.code = dataError ↔ ∃ p ∈ places, (∃ e, (p.load source disk).result = .error e) ∨
        strict = true ∧ (p.load source disk).store.lint ≠ []) ∧
      (outcome.code = success ↔ outcome.code ≠ dataError) := by
  have hplaces : ∀ p ∈ places, ∃ folder findings, disk.folder p.dir = .ok folder ∧
      checkDirectory disk p.dir = .ok findings ∧
      findings.Tells (folder.files p.dir resourceExtension) (p.load source disk) :=
    fun p hp => checkDirectory_tells (hreadable p hp) source
  refine ⟨hplaces, ?_⟩
  obtain ⟨all, hall⟩ := exists_forall₂ (R := fun (p : Place) findings =>
      checkDirectory disk p.dir = .ok findings ∧
        ∃ files, findings.Tells files (p.load source disk)).2 fun p hp => by
    obtain ⟨folder, findings, -, hcheck, htells⟩ := hplaces p hp
    exact ⟨findings, hcheck, _, htells⟩
  have hchecked : (places.map Place.dir).mapM (checkDirectory disk) = .ok all := by
    rw [mapM_eq_ok, List.forall₂_map_left_iff]
    exact hall.imp fun p findings h => h.1
  refine ⟨_, except_bind_eq_ok.2 ⟨all, hchecked, rfl⟩, ?_, checkCode_eq_success⟩
  rw [checkCode_eq_dataError]
  have hagree : List.Forall₂ (fun p f => (f.errors ≠ [] ∨ strict = true ∧ f.warnings ≠ []) ↔
      (∃ e, (p.load source disk).result = .error e) ∨
        strict = true ∧ (p.load source disk).store.lint ≠ []) places all :=
    hall.imp fun p f h => h.2.elim fun files htells => htells.notInOrder strict
  constructor
  · rintro ⟨f, hf, h⟩
    obtain ⟨p, hp, hiff⟩ := exists_of_mem_forall₂ hagree f hf
    exact ⟨p, hp, hiff.1 h⟩
  · rintro ⟨p, hp, h⟩
    obtain ⟨f, hf, hiff⟩ := exists_of_mem_forall₂ hagree.flip p hp
    exact ⟨f, hf, hiff.2 h⟩

/-- A call that nobody defines is a warning, so only a strict check finds fault with it. -/
theorem CheckOptions.run_tells_unknown_function :
    let bytes := "locale \x7b a = \"$\x7bnope()\x7d\" \x7d".toUTF8
    let disk : Disk := ⟨fun _ => .ok [("a.hcl", .file (.ok bytes))], fun _ => true⟩
    let place : Place := ⟨"lang", "en", ⟨by decide, by decide, by decide, by decide⟩⟩
    place.IsReadable disk ∧
      ∀ strict, ∃ outcome, CheckOptions.run ⟨[place.dir], false, strict⟩ disk = .ok outcome ∧
        (outcome.code = dataError ↔ strict = true) := by
  intro bytes disk place
  have hreadable : place.IsReadable disk := by
    refine ⟨_, rfl, fun name content hmem _ => ⟨bytes, ?_⟩⟩
    simpa using And.right (Prod.mk.inj (List.mem_singleton.1 hmem))
  refine ⟨hreadable, fun strict => ?_⟩
  have hplaces : ∀ p ∈ [place], p.IsReadable disk := List.forall_mem_singleton.2 hreadable
  obtain ⟨-, outcome, hrun, hcode, -⟩ := CheckOptions.run_tells hplaces false strict (.cycle #[])
  refine ⟨outcome, hrun, hcode.trans ?_⟩
  have hresult : (place.load (.cycle #[]) disk).result = .ok 1 := by decide +kernel
  have hlint : (place.load (.cycle #[]) disk).store.lint ≠ [] := by decide +kernel
  simp [hresult, hlint]

end Phrasebook
