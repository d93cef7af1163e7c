import Mathlib.Data.String.Basic
import Phrasebook.Command.Coverage
import Phrasebook.Proofs.Except
/-!
# `coverage` — every key of two locales is shared, missing or extra

The report on a locale splits the keys of its store and of the source's store into three parts:
those of both, those of the source alone, and those of the locale alone.  Seen from the locale, the
source has the same report with the last two exchanged.  What a strict run answers depends on the
second part only.
-/
namespace Phrasebook

open Command

/-! ## Sets of keys -/

def Store.keySet (st : Store) : KeySet := Std.TreeSet.ofList st.keys

theorem Store.contains_keySet (st : Store) (key : String) :
    st.keySet.contains key = st.contains key := by
  rw [keySet, Std.TreeSet.contains_ofList, keys, Std.TreeMap.contains_keys]
  rfl

theorem Store.size_keySet (st : Store) : st.keySet.size = st.size := by
  rw [keySet, keys, Std.TreeSet.size_ofList Std.TreeMap.distinct_keys, Std.TreeMap.length_keys]
  rfl

namespace KeySet

variable (s t : KeySet)

theorem pairwise_toList : s.toList.Pairwise (· < ·) :=
  Std.TreeSet.ordered_toList.imp compare_lt_iff_lt.1

theorem nodup_toList : s.toList.Nodup :=
  (pairwise_toList s).imp ne_of_lt

theorem mem_filter_toList {p : String → Bool} {key : String} :
    key ∈ s.toList.filter p ↔ s.contains key = true ∧ p key = true := by
  rw [List.mem_filter, ← List.contains_iff_mem, Std.TreeSet.contains_toList]

/-- Two sets share as many keys as they share the other way round. -/
theorem length_shared :
    (s.toList.filter t.contains).length = (t.toList.filter s.contains).length := by
  have hmem : ∀ key, key ∈ s.toList.filter t.contains ↔ key ∈ t.toList.filter s.contains := by
    intro key
    rw [mem_filter_toList, mem_filter_toList, and_comm]
  exact ((List.perm_ext_iff_of_nodup ((nodup_toList s).filter _) ((nodup_toList t).filter _)).2
    hmem).length_eq

theorem length_shared_add : (s.toList.filter t.contains).length +
    (s.toList.filter fun key => !t.contains key).length = s.size := by
  rw [← Std.TreeSet.length_toList, ← List.length_eq_length_filter_add]

end KeySet

/-! ## Comparisons -/

namespace Coverage

/-- The keys of both stores, each of them counted once. -/
structure Partitions (c : Coverage) (source target : Store) : Prop where
  missing_sorted : c.missing.Pairwise (· < ·)
  mem_missing    : ∀ key, key ∈ c.missing ↔
    source.contains key = true ∧ target.contains key = false
  extra_sorted   : c.extra.Pairwise (· < ·)
  mem_extra      : ∀ key, key ∈ c.extra ↔
    target.contains key = true ∧ source.contains key = false
  total          : c.total = source.size
  source_split   : c.translated + c.missing.length = source.size
  target_split   : c.translated + c.extra.length = target.size

/-- The same comparison from the other side. -/
structure Mirrors (c c' : Coverage) : Prop where
  missing    : c.missing = c'.extra
  extra      : c.extra = c'.missing
  translated : c.translated = c'.translated

theorem compare_partitions (locale : String) (source target : Store) :
    (compare locale source.keySet target.keySet).Partitions source target where
  missing_sorted := (KeySet.pairwise_toList _).filter _
  mem_missing key := by
    rw [compare, KeySet.mem_filter_toList, Store.contains_keySet, Store.contains_keySet,
      Bool.not_eq_true']
  extra_sorted   := (KeySet.pairwise_toList _).filter _
  mem_extra key  := by
    rw [compare, KeySet.mem_filter_toList, Store.contains_keySet, Store.contains_keySet,
      Bool.not_eq_true']
  total          := source.size_keySet
  source_split   := (KeySet.length_shared_add _ _).trans source.size_keySet
  target_split   := by
    rw [compare, KeySet.length_shared, KeySet.length_shared_add, target.size_keySet]

theorem compare_mirrors (locale locale' : String) (s t : KeySet) :
    (compare locale s t).Mirrors (compare locale' t s) :=
  ⟨rfl, rfl, KeySet.length_shared s t⟩

theorem Partitions.isComplete_eq_false {c : Coverage} {source target : Store}
    (h : c.Partitions source target) : c.isComplete = false ↔
      ∃ key, source.contains key = true ∧ target.contains key = false := by
  rw [isComplete, List.isEmpty_eq_false_iff_exists_mem]
  exact exists_congr h.mem_missing

end Coverage

namespace Command

/-! ## The stores that are compared -/

/-- An attempt to load a locale into a store that has nothing but the root. -/
def localeLoad (disk : Disk) (root locale : String) : Loaded :=
  Store.load { source := .cycle #[], root := root } disk locale

/-- The store of a locale; without a directory it has no keys. -/
def localeStore (disk : Disk) (root locale : String) : Store :=
  if disk.isDirectory (Path.join root locale) then (localeLoad disk root locale).store
  else { source := .cycle #[], root := root }

/-- The locale has no directory, or one that loads. -/
def Loads (disk : Disk) (root locale : String) : Prop :=
  disk.isDirectory (Path.join root locale) = true →
    ∃ count, (localeLoad disk root locale).result = .ok count

variable {disk : Disk} {root locale : String}

theorem localeKeys_eq (h : Loads disk root locale) :
    localeKeys disk root locale = .ok (localeStore disk root locale).keySet := by
  unfold localeKeys localeStore
  by_cases hdir : disk.isDirectory (Path.join root locale) = true
  · obtain ⟨count, hcount⟩ := h hdir
    have hresult : (Store.load { source := .cycle #[], root := root } disk locale).result =
      .ok count := hcount
    rw [if_pos hdir, if_pos hdir]
    simp only [hresult]
    rfl
  · rw [if_neg hdir, if_neg hdir]
    rfl

theorem coverages_eq {options : CoverageOptions}
    (hsource : disk.isDirectory (Path.join options.root options.source) = true)
    (hload : ∀ locale ∈ options.source :: options.locales, Loads disk options.root locale) :
    coverages disk options = .ok (options.locales.map fun locale => Coverage.compare locale
      (localeStore disk options.root options.source).keySet
      (localeStore disk options.root locale).keySet) := by
  rw [List.forall_mem_cons] at hload
  rw [coverages, if_pos hsource, localeKeys_eq hload.1, except_bind_eq_ok]
  refine ⟨_, rfl, mapM_eq_ok.2 ?_⟩
  rw [List.forall₂_map_right_iff, List.forall₂_same]
  intro locale hmem
  rw [localeKeys_eq (hload.2 locale hmem)]
  rfl

theorem coverageCode_eq_dataError {strict : Bool} {all : List Coverage} :
    coverageCode strict all = dataError ↔ strict = true ∧ ∃ c ∈ all, c.isComplete = false := by
  unfold coverageCode
  split <;> simp_all [dataError, success]

theorem coverageCode_eq_success {strict : Bool} {all : List Coverage} :
    coverageCode strict all = success ↔ coverageCode strict all ≠ dataError := by
  unfold coverageCode
  split <;> decide

end Command

/-- **Coverage splits the keys of both stores.**  If the source has a directory and every directory
loads, there is one report for each locale, in the order of the locales.  It splits the keys of the
two stores, and with source and locale exchanged it is mirrored.  So a strict run fails exactly if a
locale lacks a key of the source. -/
theorem CoverageOptions.run_partitions {disk : Disk} {options : CoverageOptions}
    (hsource : disk.isDirectory (Path.join options.root options.source) = true)
    (hload : ∀ locale ∈ options.source :: options.locales, Loads disk options.root locale) :
    ∃ all outcome, coverages disk options = .ok all ∧ options.run disk = .ok outcome ∧
      outcome.output = coverageOutput options.json all ∧
      List.Forall₂ (fun locale c => c.locale = locale ∧
        c.Partitions (localeStore disk options.root options.source)
          (localeStore disk options.root locale) ∧
        (disk.isDirectory (Path.join options.root locale) = true → ∃ c',
          coverages disk { options with source := locale, locales := [options.source] } =
            .ok [c'] ∧ c'.locale = options.source ∧ c'.Mirrors c)) options.locales all ∧
      (outcome.code = dataError ↔ options.strict = true ∧ ∃ locale ∈ options.locales, ∃ key,
        (localeStore disk options.root options.source).contains key = true ∧
          (localeStore disk options.root locale).contains key = false) ∧
      (outcome.code = success ↔ outcome.code ≠ dataError) := by
  have hall := coverages_eq hsource hload
  refine ⟨_, _, hall, except_bind_eq_ok.2 ⟨_, hall, rfl⟩, rfl, ?_, ?_, coverageCode_eq_success⟩
  · rw [List.forall₂_map_right_iff, List.forall₂_same]
    intro locale hmem
    refine ⟨rfl, Coverage.compare_partitions _ _ _, fun hdir => ?_⟩
    have hboth : ∀ other ∈ [locale, options.source], Loads disk options.root other := by
      intro other hother
      obtain rfl | rfl : other = locale ∨ other = options.source := by simpa using hother
      · exact hload other (List.mem_cons_of_mem _ hmem)
      · exact hload _ (List.mem_cons_self ..)
    have hswapped := @coverages_eq disk
      { options with source := locale, locales := [options.source] } hdir hboth
    exact ⟨_, hswapped, rfl, Coverage.compare_mirrors _ _ _ _⟩
  · rw [coverageCode_eq_dataError]
    simp only [List.mem_map, exists_exists_and_eq_and]
    refine and_congr_right fun _ => exists_congr fun locale => and_congr_right fun _ => ?_
    exact (Coverage.compare_partitions _ _ _).isComplete_eq_false

/-- German lacks one message of the English source and has another one; French has no directory. -/
theorem CoverageOptions.run_partitions_missing_message :
    let english := "locale \x7b a = \"x\" b = \"y\" \x7d".toUTF8
    let german := "locale \x7b b = \"y\" c = \"z\" \x7d".toUTF8
    let disk : Disk :=
      { folder      := fun path =>
          if path = "lang/en" then .ok [("a.hcl", .file (.ok english))]
          else if path = "lang/de" then .ok [("a.hcl", .file (.ok german))]
          else .error .notFound
        isDirectory := fun path => path = "lang/en" || path = "lang/de" }
    let options : CoverageOptions := ⟨"lang", "en", ["de", "fr"], true, false⟩
    disk.isDirectory (Path.join options.root options.source) = true ∧
      (∀ locale ∈ options.source :: options.locales, Loads disk options.root locale) ∧
      ∃ de fr outcome, coverages disk options = .ok [de, fr] ∧
        options.run disk = .ok outcome ∧ outcome.code = dataError ∧
        "core.locale.a" ∈ de.missing ∧ "core.locale.c" ∈ de.extra ∧ fr.extra = [] := by
  intro english german disk options
  have hsource : disk.isDirectory (Path.join options.root options.source) = true := by decide
  have hen : Loads disk "lang" "en" := fun _ => ⟨2, by decide +kernel⟩
  have hde : Loads disk "lang" "de" := fun _ => ⟨2, by decide +kernel⟩
  have hfr : Loads disk "lang" "fr" := fun h => absurd h (by decide)
  have hload : ∀ locale ∈ options.source :: options.locales, Loads disk options.root locale :=
    List.forall_mem_cons.2 ⟨hen, List.forall_mem_cons.2 ⟨hde, List.forall_mem_singleton.2 hfr⟩⟩
  refine ⟨hsource, hload, ?_⟩
  have ha : (localeStore disk "lang" "en").contains "core.locale.a" = true ∧
    (localeStore disk "lang" "de").contains "core.locale.a" = false := by decide +kernel
  have hc : (localeStore disk "lang" "de").contains "core.locale.c" = true ∧
    (localeStore disk "lang" "en").contains "core.locale.c" = false := by decide +kernel
  obtain ⟨_, outcome, hall, hrun, -, hreports, hcode, -⟩ :=
    CoverageOptions.run_partitions hsource hload
  obtain _ | ⟨⟨-, hde, -⟩, _ | ⟨⟨-, hfr, -⟩, _ | _⟩⟩ := hreports
  refine ⟨_, _, outcome, hall, hrun, hcode.2 ⟨rfl, "de", List.mem_cons_self .., _, ha⟩,
    (hde.mem_missing _).2 ha, (hde.mem_extra _).2 hc, ?_⟩
  have hsize := hfr.target_split
  have hnone : (localeStore disk "lang" "fr").size = 0 := by decide +kernel
  exact List.length_eq_zero_iff.1 (by simp only [options] at hsize; omega)

end Phrasebook
