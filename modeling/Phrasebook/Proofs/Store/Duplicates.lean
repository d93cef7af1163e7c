import Phrasebook.Proofs.Store.Init
/-!
# Duplicates — keys that a directory defines more than once

A store that overwrites goes on with the last definition of a key and reports each redefinition; a
store that rejects them stops at the first one that the other would report.  Nothing else tells the
two apart.
-/
namespace Phrasebook

open LoadM

/-! ## Stricter steps -/

namespace LoadM

variable {α β : Type}

/-- Where `x` succeeds, `y` does the same, or fails at the first redefinition that `x` reports. -/
def Stricter (x y : LoadM α) : Prop :=
  ∀ events a events', x.run events = (.ok a, events') → ∃ more, events' = more ++ events ∧
    match reported more with
    | []     => y.run events = (.ok a, events')
    | d :: _ => ∃ events'', y.run events = (.error (.duplicate d.key d.first d.second), events'')

theorem stricter_self {x : LoadM α} (h : ∀ events a events', x.run events = (.ok a, events') →
    ∃ more, events' = more ++ events ∧ reported more = []) : Stricter x x := by
  intro events a events' hx
  obtain ⟨more, hevents, hmore⟩ := h events a events' hx
  refine ⟨more, hevents, ?_⟩
  rw [hmore]
  exact hx

theorem stricter_ofExcept {ε : Type} (wrap : ε → LoadError) (x : Except ε α) :
    Stricter (ofExcept wrap x) (ofExcept wrap x) :=
  stricter_self fun _ _ _ h => ⟨[], (run_ofExcept_eq_ok.1 h).2.symm, rfl⟩

theorem stricter_note {event : LoadEvent} (h : event.redefinition? = none) :
    Stricter (note event) (note event) := by
  refine stricter_self fun events a events' hrun => ?_
  cases hrun
  exact ⟨[event], rfl, by rw [reported, List.filterMap_cons_none h]; rfl⟩

theorem stricter_compile (path : String) (tree : Except ParseError Resource.Tree) :
    Stricter (compile path tree) (compile path tree) := by
  refine stricter_self fun events messages events' h => ?_
  obtain ⟨items, -, -, hevents⟩ := compile_eq_ok.1 h
  exact ⟨skipped items, hevents, reported_skipped items⟩

namespace Stricter

theorem bind {x y : LoadM α} {f g : α → LoadM β} (hx : Stricter x y)
    (hf : ∀ a, Stricter (f a) (g a)) : Stricter (x >>= f) (y >>= g) := by
  intro events b events' h
  obtain ⟨a, mid, ha, hb⟩ := run_bind_eq_ok.1 h
  obtain ⟨more, rfl, hy⟩ := hx events a mid ha
  obtain ⟨more', rfl, hg⟩ := hf a _ b events' hb
  refine ⟨more' ++ more, (List.append_assoc ..).symm, ?_⟩
  rw [reported_append]
  -- if `x` reports a redefinition, that is the first one, and `y` never gets to `g`
  cases hmore : reported more with
  | cons d _ =>
    rw [hmore] at hy
    obtain ⟨events'', hy⟩ := hy
    exact ⟨events'', by rw [run_bind, hy]⟩
  | nil =>
    rw [hmore] at hy
    rw [List.nil_append, run_bind_of_ok hy]
    exact hg

theorem foldlM {f g : β → α → LoadM β} (h : ∀ b a, Stricter (f b a) (g b a)) :
    ∀ (as : List α) (b : β), Stricter (as.foldlM f b) (as.foldlM g b)
  | [], b => stricter_self fun _ _ _ hrun => ⟨[], by cases hrun; rfl, rfl⟩
  | a :: as, b => by
    rw [List.foldlM_cons, List.foldlM_cons]
    exact (h b a).bind fun b' => foldlM h as b'

end Stricter

end LoadM

namespace Collection

theorem stricter_add (path : String) (c : Collection) (message : String × Entry) :
    Stricter (add .overwrite path c message) (add .reject path c message) := by
  intro events a events' h
  rw [run_add_overwrite] at h
  cases h
  refine ⟨_, rfl, ?_⟩
  unfold add
  simp only
  cases c.origins[message.1]? with
  | none => rfl
  | some first => exact ⟨events, rfl⟩

theorem stricter_addFile (c : Collection) (file : String × Except IoFault ByteArray) :
    Stricter (addFile .overwrite c file) (addFile .reject c file) := by
  unfold addFile
  refine (stricter_ofExcept _ file.2).bind fun bytes => ?_
  refine (stricter_compile file.1 _).bind fun messages => ?_
  exact (stricter_note rfl).bind fun _ => .foldlM (stricter_add file.1) messages c

theorem stricter_ofDirectory (disk : Disk) (dir : String) :
    Stricter (ofDirectory .overwrite disk dir) (ofDirectory .reject disk dir) := by
  unfold ofDirectory
  exact (stricter_ofExcept _ _).bind fun folder => .foldlM stricter_addFile _ {}

end Collection

/-! ## Stores -/

/-- The redefinitions that loading warned of, in order. -/
def Loaded.redefinitions (l : Loaded) : List Redefinition :=
  l.events.filterMap LoadEvent.redefinition?

/-- The warning of a redefinition: the key, the file of the nearest earlier definition, and the file
of this one. -/
def Redefinition.warning (d : Redefinition) : Log.Record :=
  ⟨.warn, "duplicate key overwritten",
    [("key", d.key), ("first", d.first), ("second", d.second)]⟩

def Loaded.warnings (l : Loaded) : List Log.Record :=
  (l.events.map LoadEvent.record).filter fun record => record.level = .warn

/-- What a log shows of loading at the level of warnings are the redefinitions. -/
theorem Loaded.warnings_eq (l : Loaded) :
    l.warnings = l.redefinitions.map Redefinition.warning := by
  rw [warnings, List.filter_map, redefinitions, List.map_filterMap, ← List.filterMap_eq_map,
    ← List.filterMap_eq_filter, List.filterMap_filterMap]
  congr 1
  funext event
  cases event <;> rfl

namespace Store

variable {st : Store}

def under (policy : DuplicatePolicy) (st : Store) : Store := { st with duplicates := policy }

end Store

/-- **The policies differ on duplicates only.**  A directory that loads without a warning of a
redefinition loads the same where redefinitions are rejected.  Otherwise the first redefinition is
the error there, and no message is left.  The warnings in the log are one for each definition of a
key that an earlier one defines, with the file of the nearest earlier one. -/
theorem Store.init_policies {st : Store} {disk : Disk} {dir : String} {count : Nat}
    (h : ((st.under .overwrite).init disk dir).result = .ok count) :
    let kept := (st.under .overwrite).init disk dir
    let strict := (st.under .reject).init disk dir
    (kept.redefinitions = [] →
      strict.result = .ok count ∧ strict.store.entries = kept.store.entries) ∧
    (∀ d rest, kept.redefinitions = d :: rest →
      strict.result = .error (.duplicate d.key d.first d.second) ∧ strict.store.entries = ∅) ∧
    kept.warnings = kept.redefinitions.map Redefinition.warning ∧
    ∃ folder ds, disk.folder dir = .ok folder ∧ folder.Defines dir ds ∧
      kept.redefinitions = redefinitions ds := by
  intro kept strict
  obtain ⟨_, _, hrun⟩ := run_of_install h
  obtain ⟨folder, hfolder, hload⟩ := Collection.isLoadable_of_ofDirectory hrun
  obtain ⟨ds, c, events, hds, hrun, hc⟩ := Collection.ofDirectory_overwrite hfolder hload
  obtain ⟨more, hevents, hstrict⟩ := Collection.stricter_ofDirectory disk dir [] c events hrun
  rw [List.append_nil] at hevents
  subst hevents
  have hkept : kept = ⟨{ st.under .overwrite with entries := c.entries }, .ok c.entries.size,
    events.reverse⟩ := install_of_ok hrun
  have hreported : kept.redefinitions = reported events := by
    rw [hkept, Loaded.redefinitions, List.filterMap_reverse]
    rfl
  rw [← hreported] at hstrict
  refine ⟨fun hnone => ?_, fun d rest hfirst => ?_, kept.warnings_eq, folder, ds, hfolder, hds,
    hreported.trans hc.noted⟩
  · rw [hnone] at hstrict
    have hsame : strict = ⟨{ st.under .reject with entries := c.entries }, .ok c.entries.size,
      events.reverse⟩ := install_of_ok hstrict
    have hcount : kept.result = .ok count := h
    rw [hkept] at hcount
    rw [hsame, hkept]
    exact ⟨hcount, rfl⟩
  · rw [hfirst] at hstrict
    obtain ⟨events', hstrict⟩ := hstrict
    have hrejected : strict = ⟨(st.under .reject).clear, _, events'.reverse⟩ :=
      install_of_error hstrict
    rw [hrejected]
    exact ⟨rfl, rfl⟩

/-- A key that is defined twice in one file and once more in the next. -/
theorem Store.init_policies_two_files :
    let a := "locale \x7b a = \"x\" a = \"y\" b = \"z\" \x7d".toUTF8
    let b := "locale \x7b a = \"w\" \x7d".toUTF8
    let folder : Folder := [("b.hcl", .file (.ok b)), ("a.hcl", .file (.ok a))]
    let disk : Disk := ⟨fun _ => .ok folder, fun _ => true⟩
    let st : Store := { source := .cycle #[] }
    let kept := (st.under .overwrite).init disk "en"
    let strict := (st.under .reject).init disk "en"
    kept.result = .ok 2 ∧
      kept.redefinitions =
        [⟨"core.locale.a", "en/a.hcl", "en/a.hcl"⟩, ⟨"core.locale.a", "en/a.hcl", "en/b.hcl"⟩] ∧
      strict.result = .error (.duplicate "core.locale.a" "en/a.hcl" "en/a.hcl") ∧
      strict.store.entries = ∅ := by
  intro a b folder disk st kept strict
  have hlists : folder.Lists resourceExtension [("a.hcl", .ok a), ("b.hcl", .ok b)] :=
    ⟨by decide, .swap _ _ _⟩
  have hkept : kept.result = .ok 2 ∧ kept.redefinitions =
      [⟨"core.locale.a", "en/a.hcl", "en/a.hcl"⟩, ⟨"core.locale.a", "en/a.hcl", "en/b.hcl"⟩] := by
    unfold kept
    rw [init, Collection.ofDirectory_of_folder rfl, Folder.files_of_lists hlists (by decide)]
    decide +kernel
  exact ⟨hkept.1, hkept.2, (init_policies hkept.1).2.1 _ _ hkept.2⟩

end Phrasebook
