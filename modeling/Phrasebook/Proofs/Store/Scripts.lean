import Phrasebook.Proofs.Store.Init
import Phrasebook.Proofs.Store.Session
/-!
# Scripts — what loading a locale offers to the script host

Scripts come after the resources, and only if these are installed.  They are offered in the order of
their names, up to the first that the host refuses.  All of this is told from the directory, from
what the host refuses and from the settings of the store, which nothing that a program does with the
store changes; so a locale that is loaded again is loaded alike.
-/
namespace Phrasebook

open LoadM

/-! ## Offers -/

def LoadEvent.script? : LoadEvent → Option String
  | .offeredScript path => some path
  | _                   => none

/-- The paths of the scripts that were offered, in order. -/
def Loaded.offered (l : Loaded) : List String := l.events.filterMap LoadEvent.script?

namespace ScriptHost

def accepts (h : ScriptHost) (path : String) : Bool := (h.refusal? path).isNone

/-- The paths up to the first one that the host refuses, that one included. -/
def upToRefused (h : ScriptHost) (paths : List String) : List String :=
  paths.takeWhile h.accepts ++ (paths.find? fun path => !h.accepts path).toList

/-- The error of the first of the paths that the host refuses. -/
def firstRefusal? (h : ScriptHost) (paths : List String) : Option LoadError :=
  paths.findSome? fun path => (h.refusal? path).map (.script path)

/-- The host after it was offered the scripts at the paths, up to the first that it refused. -/
def after (h : ScriptHost) (paths : List String) : ScriptHost :=
  { h with accepted := h.accepted ++ paths.takeWhile h.accepts }

theorem firstRefusal?_eq_none {h : ScriptHost} {paths : List String} :
    h.firstRefusal? paths = none ↔ ∀ path ∈ paths, h.refusal? path = none := by
  simp [firstRefusal?]

end ScriptHost

namespace Store

theorem offer_eq : ∀ (host : ScriptHost) (paths : List String), offer host paths =
    (host.after paths, (host.firstRefusal? paths).elim (.ok ()) .error,
      (host.upToRefused paths).map .offeredScript)
  | host, [] => by
    rw [offer, ScriptHost.after, List.takeWhile_nil, List.append_nil]
    rfl
  | host, path :: paths => by
    cases hpath : host.refusal? path with
    | some words =>
      simp [offer, ScriptHost.load, ScriptHost.after, ScriptHost.firstRefusal?,
        ScriptHost.upToRefused, ScriptHost.accepts, hpath]
    | none =>
      have hrest := offer_eq { host with accepted := host.accepted ++ [path] } paths
      rw [offer, ScriptHost.load, hpath]
      simp only
      rw [hrest]
      simp [ScriptHost.after, ScriptHost.firstRefusal?, ScriptHost.upToRefused,
        ScriptHost.accepts, hpath]
      exact ⟨rfl, rfl⟩

/-- What comes of an offer depends on what the host refuses, not on what it has accepted before. -/
theorem offer_congr {host host' : ScriptHost} (h : host.refusal? = host'.refusal?)
    (paths : List String) : (offer host paths).2 = (offer host' paths).2 := by
  have haccepts : host.accepts = host'.accepts := by
    funext path
    rw [ScriptHost.accepts, ScriptHost.accepts, h]
  rw [offer_eq, offer_eq, ScriptHost.firstRefusal?, ScriptHost.firstRefusal?,
    ScriptHost.upToRefused, ScriptHost.upToRefused, haccepts, h]

end Store

/-! ## Resources offer nothing -/

namespace LoadM

variable {α β : Type}

/-- No event of the step offers a script. -/
def OffersNothing (x : LoadM α) : Prop :=
  ∀ events, ((x.run events).2).filterMap LoadEvent.script? = events.filterMap LoadEvent.script?

theorem offersNothing_ofExcept {ε : Type} (wrap : ε → LoadError) (x : Except ε α) :
    OffersNothing (ofExcept wrap x) := by
  intro events
  cases x <;> rfl

theorem offersNothing_note {event : LoadEvent} (h : event.script? = none) :
    OffersNothing (note event) :=
  fun _ => List.filterMap_cons_none h

namespace OffersNothing

theorem bind {x : LoadM α} {f : α → LoadM β} (hx : OffersNothing x)
    (hf : ∀ a, OffersNothing (f a)) : OffersNothing (x >>= f) := by
  intro events
  have hevents := hx events
  rw [run_bind]
  split
  · rename_i a mid hrun
    rw [hrun] at hevents
    exact (hf a mid).trans hevents
  · rename_i e mid hrun
    rw [hrun] at hevents
    exact hevents

theorem foldlM {f : β → α → LoadM β} (h : ∀ b a, OffersNothing (f b a)) :
    ∀ (as : List α) (b : β), OffersNothing (as.foldlM f b)
  | [], _ => fun _ => rfl
  | a :: as, b => by
    rw [List.foldlM_cons]
    exact (h b a).bind fun b' => foldlM h as b'

end OffersNothing

end LoadM

namespace Collection

theorem offersNothing_compile (path : String) (tree : Except ParseError Resource.Tree) :
    OffersNothing (compile path tree) := by
  unfold compile
  refine (offersNothing_ofExcept _ _).bind fun items => ?_
  refine OffersNothing.bind (fun events => ?_) fun _ => offersNothing_ofExcept _ _
  rw [run_forM_note, List.filterMap_append]
  have hskipped : ((items.filterMap Resource.textless?).map LoadEvent.textless).reverse.filterMap
      LoadEvent.script? = [] := by
    rw [List.filterMap_eq_nil_iff]
    intro event hevent
    obtain ⟨key, -, rfl⟩ := List.mem_map.1 (List.mem_reverse.1 hevent)
    rfl
  rw [hskipped, List.nil_append]

theorem offersNothing_add (policy : DuplicatePolicy) (path : String) (c : Collection)
    (message : String × Entry) : OffersNothing (add policy path c message) := by
  unfold add
  simp only
  split
  · exact fun _ => rfl
  · cases policy with
    | overwrite => exact (offersNothing_note rfl).bind fun _ _ => rfl
    | reject => exact fun _ => rfl

theorem offersNothing_ofDirectory (policy : DuplicatePolicy) (disk : Disk) (dir : String) :
    OffersNothing (ofDirectory policy disk dir) := by
  unfold ofDirectory
  refine (offersNothing_ofExcept _ _).bind fun folder =>
    .foldlM (fun (c : Collection) file => ?_) _ _
  unfold addFile
  refine (offersNothing_ofExcept _ file.2).bind fun bytes => ?_
  refine (offersNothing_compile file.1 _).bind fun messages => ?_
  exact (offersNothing_note rfl).bind fun _ => .foldlM (offersNothing_add policy file.1) messages c

end Collection

namespace Store

variable {st st' : Store} {host : ScriptHost} {disk disk' : Disk} {name : String}

theorem offered_init (st : Store) (disk : Disk) (dir : String) :
    (st.init disk dir).offered = [] := by
  have hnothing := Collection.offersNothing_ofDirectory st.duplicates disk dir []
  have hevents : (st.init disk dir).events =
      ((Collection.ofDirectory st.duplicates disk dir).run []).2.reverse := by
    rw [init, install]
    split <;> simp only [*]
  rw [Loaded.offered, hevents, List.filterMap_reverse, hnothing]
  rfl

/-! ## Resources first -/

/-- What comes of the resources of a locale, which are read in its language. -/
def resources (st : Store) (disk : Disk) (name : String) : Loaded :=
  (st.setLanguage (Language.ofCode name)).init disk (st.directory name)

theorem install_language (st : Store) (collected : LoadM Collection) :
    (st.install collected).store.language = st.language := by
  unfold install
  split <;> rfl

theorem install_scripts (st : Store) (collected : LoadM Collection) :
    (st.install collected).store.scripts = st.scripts := by
  unfold install
  split <;> rfl

theorem resources_language (st : Store) (disk : Disk) (name : String) :
    (st.resources disk name).store.language = Language.ofCode name := by
  unfold resources
  generalize Language.ofCode name = language
  exact install_language (st.setLanguage language) _

theorem resources_scripts (st : Store) (disk : Disk) (name : String) :
    (st.resources disk name).store.scripts = st.scripts := by
  unfold resources
  generalize Language.ofCode name = language
  exact install_scripts (st.setLanguage language) _

theorem folder_of_resources {count : Nat} (h : (st.resources disk name).result = .ok count) :
    ∃ folder, disk.folder (st.directory name) = .ok folder ∧ folder.IsLoadable := by
  obtain ⟨c, events, hrun⟩ := run_of_install h
  exact Collection.isLoadable_of_ofDirectory hrun

theorem offerScripts_language (st : Store) (disk : Disk) (dir : String) :
    (st.offerScripts disk dir).1.language = st.language := by
  unfold offerScripts
  split
  · rfl
  · split <;> rfl

/-- What comes of the scripts of a locale, which are offered behind its resources. -/
def scriptsBehind (st : Store) (disk : Disk) (name : String) :
    Store × Except LoadError Unit × List LoadEvent :=
  (st.resources disk name).store.offerScripts disk (st.directory name)

/-- How loading a locale ends, by what came of its resources and of its scripts. -/
inductive Ends (name : String) (first : Loaded)
    (behind : Store × Except LoadError Unit × List LoadEvent) : Loaded → Prop where
  | refused {e : LoadError} : first.result = .error e → Ends name first behind first
  | stopped {count : Nat} {e : LoadError} : first.result = .ok count → behind.2.1 = .error e →
    Ends name first behind ⟨behind.1.clear, .error e, first.events ++ behind.2.2⟩
  | done {count : Nat} : first.result = .ok count → behind.2.1 = .ok () →
    Ends name first behind
      ⟨behind.1, .ok count, first.events ++ behind.2.2 ++ [.loadedLocale name count]⟩

/-- Every fact about loading is read off the three ways in which it ends. -/
theorem load_ends (st : Store) (disk : Disk) (name : String) :
    Ends name (st.resources disk name) (st.scriptsBehind disk name) (st.load disk name) := by
  unfold load scriptsBehind
  simp only
  rw [← resources]
  generalize st.resources disk name = first
  obtain ⟨store, result, events⟩ := first.store.offerScripts disk (st.directory name)
  cases hfirst : first.result with
  | error e => exact .refused hfirst
  | ok count =>
    cases result with
    | error e => exact .stopped hfirst rfl
    | ok => exact .done hfirst rfl

theorem load_of_refused_resources {e : LoadError} (h : (st.resources disk name).result = .error e) :
    st.load disk name = st.resources disk name := by
  have hends := st.load_ends disk name
  generalize st.load disk name = loaded at hends ⊢
  cases hends with
  | refused => rfl
  | stopped hok | done hok => cases h.symm.trans hok

theorem load_language (st : Store) (disk : Disk) (name : String) :
    (st.load disk name).store.language = Language.ofCode name := by
  have hfirst := st.resources_language disk name
  have hbehind := (st.resources disk name).store.offerScripts_language disk (st.directory name)
  rw [← scriptsBehind] at hbehind
  have hends := st.load_ends disk name
  generalize st.load disk name = loaded at hends ⊢
  cases hends with
  | refused => exact hfirst
  | stopped | done => exact hbehind.trans hfirst

/-- Whatever becomes of the scripts, it comes behind the resources. -/
theorem resources_events_prefix (st : Store) (disk : Disk) (name : String) :
    (st.resources disk name).events <+: (st.load disk name).events := by
  have hends := st.load_ends disk name
  generalize st.load disk name = loaded at hends ⊢
  cases hends with
  | refused => exact List.prefix_refl _
  | stopped => exact List.prefix_append _ _
  | done =>
    simp only [List.append_assoc]
    exact List.prefix_append _ _

/-- With the resources installed, the scripts of the directory are offered, and what comes of them
is what comes of loading. -/
theorem load_of_resources {folder : Folder} {count : Nat} (hhost : st.scripts = some host)
    (hfolder : disk.folder (st.directory name) = .ok folder)
    (h : (st.resources disk name).result = .ok count) :
    let paths := (folder.files (st.directory name) scriptExtension).map Prod.fst
    (st.load disk name).offered = host.upToRefused paths ∧
      (st.load disk name).result = (host.firstRefusal? paths).elim (.ok count) .error ∧
      (st.load disk name).store.scripts = some (host.after paths) := by
  intro paths
  have hnothing : (st.resources disk name).events.filterMap LoadEvent.script? = [] :=
    offered_init _ disk _
  have hscripts : (st.resources disk name).store.scripts = some host :=
    (st.resources_scripts disk name).trans hhost
  have hbehind : st.scriptsBehind disk name =
      ({ (st.resources disk name).store with scripts := some (host.after paths) },
        (host.firstRefusal? paths).elim (.ok ()) .error,
        (host.upToRefused paths).map .offeredScript) := by
    rw [scriptsBehind, offerScripts, hscripts]
    simp only
    rw [hfolder]
    simp only
    rw [offer_eq]
  have hpaths : ((host.upToRefused paths).map LoadEvent.offeredScript).filterMap
      LoadEvent.script? = host.upToRefused paths := by
    rw [List.filterMap_map]
    exact List.filterMap_some
  have hends := st.load_ends disk name
  rw [hbehind] at hends
  unfold Loaded.offered
  generalize st.load disk name = loaded at hends ⊢
  generalize st.resources disk name = first at h hnothing hends
  cases hends with
  | refused he => cases h.symm.trans he
  | stopped _ he =>
    cases hrefusal : host.firstRefusal? paths with
    | none =>
      rw [hrefusal] at he
      cases he
    | some e' =>
      rw [hrefusal] at he
      obtain rfl := Except.error.inj he
      refine ⟨?_, rfl, rfl⟩
      simp only [List.filterMap_append, hnothing, hpaths, List.nil_append]
  | done hc he =>
    cases hrefusal : host.firstRefusal? paths with
    | some e' =>
      rw [hrefusal] at he
      cases he
    | none =>
      refine ⟨?_, hc.symm.trans h, rfl⟩
      simp only [List.filterMap_append, hnothing, hpaths, List.nil_append]
      exact List.append_nil _

/-! ## Settings -/

/-- What loading goes by, apart from the disk: another store with these settings loads alike. -/
structure SameSettings (st st' : Store) : Prop where
  root       : st.root = st'.root
  duplicates : st.duplicates = st'.duplicates
  refusals   : st.scripts.map ScriptHost.refusal? = st'.scripts.map ScriptHost.refusal?

theorem SameSettings.refl (st : Store) : st.SameSettings st := ⟨rfl, rfl, rfl⟩

theorem SameSettings.trans {st'' : Store} (h : st.SameSettings st') (h' : st'.SameSettings st'') :
    st.SameSettings st'' :=
  ⟨h.root.trans h'.root, h.duplicates.trans h'.duplicates, h.refusals.trans h'.refusals⟩

theorem install_settings (st : Store) (collected : LoadM Collection) :
    st.SameSettings (st.install collected).store := by
  unfold install
  split <;> exact ⟨rfl, rfl, rfl⟩

theorem resources_settings (st : Store) (disk : Disk) (name : String) :
    st.SameSettings (st.resources disk name).store := by
  have hlanguage : ∀ language, st.SameSettings (st.setLanguage language) :=
    fun _ => ⟨rfl, rfl, rfl⟩
  unfold resources init
  exact (hlanguage _).trans (install_settings _ _)

theorem offerScripts_settings (st : Store) (disk : Disk) (dir : String) :
    st.SameSettings (st.offerScripts disk dir).1 := by
  unfold offerScripts
  split
  · exact .refl st
  · rename_i host hhost
    split
    · exact .refl st
    · rw [offer_eq]
      refine ⟨rfl, rfl, ?_⟩
      rw [hhost]
      rfl

theorem load_settings (st : Store) (disk : Disk) (name : String) :
    st.SameSettings (st.load disk name).store := by
  have hfirst := st.resources_settings disk name
  have hbehind := hfirst.trans (offerScripts_settings _ disk (st.directory name))
  rw [← scriptsBehind] at hbehind
  have hends := st.load_ends disk name
  generalize st.load disk name = loaded at hends ⊢
  cases hends with
  | refused => exact hfirst
  | stopped => exact ⟨hbehind.root, hbehind.duplicates, hbehind.refusals⟩
  | done => exact hbehind

theorem offerScripts_congr {dir : String}
    (h : st.scripts.map ScriptHost.refusal? = st'.scripts.map ScriptHost.refusal?)
    (hdisk : Folder.Same (disk.folder dir) (disk'.folder dir)) :
    (st'.offerScripts disk' dir).2 = (st.offerScripts disk dir).2 := by
  unfold offerScripts
  generalize disk.folder dir = folder at hdisk ⊢
  generalize disk'.folder dir = folder' at hdisk ⊢
  cases hscripts : st.scripts with
  | none =>
    rw [hscripts] at h
    rw [Option.map_eq_none_iff.1 h.symm]
  | some host =>
    rw [hscripts] at h
    obtain ⟨host', hhost', hrefusal⟩ := Option.map_eq_some_iff.1 h.symm
    rw [hhost']
    cases hdisk with
    | unreadable fault => rfl
    | enumerated hf hperm =>
      simp only
      rw [Folder.files_eq_of_perm hf hperm]
      exact offer_congr hrefusal _

/-- Loading ends alike where it went alike. -/
theorem Ends.congr {first first' loaded loaded' : Loaded}
    {behind behind' : Store × Except LoadError Unit × List LoadEvent}
    (h : Ends name first behind loaded) (h' : Ends name first' behind' loaded')
    (hresult : first'.result = first.result)
    (hentries : first'.store.entries = first.store.entries)
    (hevents : first'.events = first.events) (hbehind : behind'.2 = behind.2)
    (hkept : behind.1.entries = first.store.entries)
    (hkept' : behind'.1.entries = first'.store.entries) :
    loaded'.result = loaded.result ∧ loaded'.store.entries = loaded.store.entries ∧
      loaded'.events = loaded.events := by
  cases h <;> cases h' <;> simp_all [clear]

/-- A locale loads alike wherever the settings and the directory are the same. -/
theorem load_congr (h : st.SameSettings st')
    (hdisk : Folder.Same (disk.folder (st.directory name)) (disk'.folder (st.directory name))) :
    (st'.load disk' name).result = (st.load disk name).result ∧
      (st'.load disk' name).store.entries = (st.load disk name).store.entries ∧
      (st'.load disk' name).events = (st.load disk name).events := by
  have hdir : st'.directory name = st.directory name := by rw [directory, directory, h.root]
  obtain ⟨hresult, hentries, hevents⟩ : (st'.resources disk' name).result =
      (st.resources disk name).result ∧ (st'.resources disk' name).store.entries =
        (st.resources disk name).store.entries ∧
        (st'.resources disk' name).events = (st.resources disk name).events := by
    rw [resources, resources, hdir]
    generalize Language.ofCode name = language
    exact @init_congr (st.setLanguage language) (st'.setLanguage language) _ _ _ h.duplicates hdisk
  have hbehind : (st'.scriptsBehind disk' name).2 = (st.scriptsBehind disk name).2 := by
    rw [scriptsBehind, scriptsBehind, hdir]
    exact offerScripts_congr (((st.resources_settings disk name).refusals.symm.trans
      h.refusals).trans (st'.resources_settings disk' name).refusals) hdisk
  exact (st.load_ends disk name).congr (st'.load_ends disk' name) hresult hentries hevents hbehind
    (offerScripts_entries _ _ _) (offerScripts_entries _ _ _)

end Store

/-! ## Sessions -/

namespace Session

/-- Whatever a program does with a store, short of exchanging the runtime behind it, the settings
stay. -/
theorem step_settings (s : Session) {operation : Operation}
    (h : ∀ host, operation ≠ .script host) : s.store.SameSettings (s.step operation).store := by
  cases operation with
  | init disk dir => exact Store.install_settings s.store _
  | load disk name => exact s.store.load_settings disk name
  | loadText label text => exact Store.install_settings s.store _
  | setLanguage | register | lookup => exact ⟨rfl, rfl, rfl⟩
  | script host => exact absurd rfl (h host)

theorem run_settings : ∀ {operations : List Operation} (s : Session),
    (∀ host, .script host ∉ operations) → s.store.SameSettings (s.run operations).store
  | [], s, _ => .refl s.store
  | operation :: operations, s, h => by
    have hstep : ∀ host, operation ≠ .script host := by
      rintro host rfl
      exact h host List.mem_cons_self
    exact (s.step_settings hstep).trans
      (run_settings (s.step operation) fun host hmem => h host (List.mem_cons_of_mem _ hmem))

end Session

/-- **A locale that is loaded again is loaded alike.**  Loading switches the language in any case.
The script host is offered nothing if a resource file fails, else the scripts of the directory in
the order of their names, up to the first that it refuses; loading succeeds if it refuses none.  And
if the same locale is loaded once more from the same directory, whatever the program did with the
store in between, the result, the entries, the language and the scripts that are offered are the
same. -/
theorem Store.load_again {st : Store} {host : ScriptHost} (hhost : st.scripts = some host)
    {disk : Disk} {name : String}
    (hdistinct : ∀ f, disk.folder (st.directory name) = .ok f → f.IsDistinct) :
    let resources := st.resources disk name
    let loaded := st.load disk name
    loaded.store.language = Language.ofCode name ∧
    resources.events <+: loaded.events ∧ resources.offered = [] ∧
    (∀ f, disk.folder (st.directory name) = .ok f → ¬ f.IsLoadable →
      ∃ e, resources.result = .error e) ∧
    (∀ e, resources.result = .error e →
      loaded.result = .error e ∧ loaded.offered = [] ∧ loaded.store.scripts = some host) ∧
    (∀ count, resources.result = .ok count → ∃ f names,
      disk.folder (st.directory name) = .ok f ∧ f.Names scriptExtension names ∧
      let paths := names.map (Path.join (st.directory name))
      loaded.offered = host.upToRefused paths ∧
      loaded.store.scripts = some (host.after paths) ∧
      loaded.result = (host.firstRefusal? paths).elim (.ok count) .error ∧
      (loaded.result = .ok count ↔ ∀ path ∈ paths, host.refusal? path = none)) ∧
    ∀ operations, (∀ host, .script host ∉ operations) → ∀ disk' : Disk,
      Folder.Same (disk.folder (st.directory name)) (disk'.folder (st.directory name)) →
        let again := ((Session.afterLoad loaded).run operations).store.load disk' name
        again.result = loaded.result ∧ again.store.entries = loaded.store.entries ∧
          again.store.language = loaded.store.language ∧ again.offered = loaded.offered := by
  intro resources loaded
  refine ⟨st.load_language disk name, st.resources_events_prefix disk name, offered_init _ disk _,
    fun f hf hfails => ?_, fun e he => ?_, fun count hcount => ?_,
    fun operations hscript disk' hdisk => ?_⟩
  · cases hresult : resources.result with
    | error e => exact ⟨e, rfl⟩
    | ok count =>
      obtain ⟨f', hf', hloadable⟩ := folder_of_resources hresult
      obtain rfl : f = f' := Except.ok.inj (hf.symm.trans hf')
      exact absurd hloadable hfails
  · have hload : loaded = resources := load_of_refused_resources he
    rw [hload]
    exact ⟨he, offered_init _ disk _, (st.resources_scripts disk name).trans hhost⟩
  · obtain ⟨f, hf, -⟩ := folder_of_resources hcount
    obtain ⟨hoffered, hresult, hscripts⟩ := load_of_resources hhost hf hcount
    have hpaths : (f.files (st.directory name) scriptExtension).map Prod.fst =
        ((f.sorted.filterMap (Folder.file? scriptExtension)).map Prod.fst).map
          (Path.join (st.directory name)) := by
      rw [Folder.files_eq_map, List.map_map, List.map_map]
      rfl
    rw [hpaths] at hoffered hresult hscripts
    refine ⟨f, _, hf, Folder.names_of_lists (f.lists_sorted scriptExtension) (hdistinct f hf),
      hoffered, hscripts, hresult, ?_⟩
    rw [show loaded.result = _ from hresult, ← ScriptHost.firstRefusal?_eq_none]
    cases host.firstRefusal? _ <;> simp
  · have hsettings : st.SameSettings ((Session.afterLoad loaded).run operations).store :=
      (st.load_settings disk name).trans (Session.run_settings (.afterLoad loaded) hscript)
    obtain ⟨hresult, hentries, hevents⟩ := load_congr hsettings hdisk
    refine ⟨hresult, hentries, ?_, congrArg (List.filterMap LoadEvent.script?) hevents⟩
    rw [load_language]
    exact (st.load_language disk name).symm

/-- The second of three scripts is refused, and refused again. -/
theorem Store.load_again_refused :
    let text := "locale \x7b a = \"x\" \x7d".toUTF8
    let folder : Folder :=
      [("b.lua", .file (.ok text)), ("a.hcl", .file (.ok text)), ("c.lua", .file (.ok text)),
        ("d.lua", .other), ("a.lua", .file (.ok text))]
    let disk : Disk := ⟨fun _ => .ok folder, fun _ => true⟩
    let host : ScriptHost :=
      { raw?     := fun _ => none
        refusal? := fun path => if path = "lang/ja/b.lua" then some "no" else none }
    let st : Store := { source := .cycle #[], scripts := some host }
    let loaded := st.load disk "ja"
    folder.IsDistinct ∧ (st.resources disk "ja").result = .ok 1 ∧
      loaded.offered = ["lang/ja/a.lua", "lang/ja/b.lua"] ∧
      loaded.result = .error (.script "lang/ja/b.lua" "no") ∧
      loaded.store.language = .japanese ∧
      ∀ label text,
        let between : List Operation := [.loadText label text, .setLanguage .english]
        let again := ((Session.afterLoad loaded).run between).store.load disk "ja"
        again.result = loaded.result ∧ again.store.language = .japanese ∧
          again.offered = loaded.offered := by
  intro text folder disk host st loaded
  have hdistinct : folder.IsDistinct := by decide
  have hlists : folder.Lists resourceExtension [("a.hcl", .ok text)] := ⟨by decide, .refl _⟩
  have hresources : (st.resources disk "ja").result = .ok 1 := by
    rw [resources, init, Collection.ofDirectory_of_folder rfl,
      Folder.files_of_lists hlists hdistinct]
    decide +kernel
  have hscripts : folder.Lists scriptExtension
      [("a.lua", .ok text), ("b.lua", .ok text), ("c.lua", .ok text)] :=
    ⟨by decide, (List.perm_append_singleton _ _).symm⟩
  have hdisk : ∀ f, disk.folder (st.directory "ja") = .ok f → f.IsDistinct :=
    fun f hf => Except.ok.inj hf ▸ hdistinct
  obtain ⟨hlanguage, -, -, -, -, hoffers, hagain⟩ := @load_again st host rfl disk "ja" hdisk
  obtain ⟨f, names, hf, hnames, hoffered, -, hresult, -⟩ := hoffers 1 hresources
  obtain rfl : folder = f := Except.ok.inj hf
  obtain rfl := (Folder.names_of_lists hscripts hdistinct).unique hnames
  refine ⟨hdistinct, hresources, hoffered.trans (by decide), hresult.trans (by decide),
    hlanguage.trans (by decide), fun label text => ?_⟩
  obtain ⟨hresult, -, hlanguage', hoffered⟩ := hagain [.loadText label text, .setLanguage .english]
    (by simp) disk (.enumerated hdistinct (.refl _))
  exact ⟨hresult, hlanguage'.trans (hlanguage.trans (by decide)), hoffered⟩

end Phrasebook
