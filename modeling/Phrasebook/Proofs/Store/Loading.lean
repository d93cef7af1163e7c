import Phrasebook.Proofs.Resource.Leaves
import Phrasebook.Proofs.Template.Canonical
/-!
# Loading — what a store holds after an attempt to load

Whatever is collected consists of messages: a key below the root, and canonical expressions, at
least one.  Whatever fails, in whichever of its steps, leaves the store without any.
-/
namespace Phrasebook

/-! ## Steps that may fail -/

namespace LoadM

variable {α β : Type} {P : α → Prop} {Q : β → Prop} {events events' : List LoadEvent}

theorem run_bind (x : LoadM α) (f : α → LoadM β) (events : List LoadEvent) :
    (x >>= f).run events = match x.run events with
      | (.ok a, mid)    => (f a).run mid
      | (.error e, mid) => (.error e, mid) := by
  show (ExceptT.bindCont f (x.run events).1).run (x.run events).2 = _
  cases hx : x.run events with
  | mk result mid => cases result <;> rfl

/-- A step that succeeds hands its value and its events on to the next. -/
theorem run_bind_of_ok {x : LoadM α} {f : α → LoadM β} {a : α}
    (h : x.run events = (.ok a, events')) : (x >>= f).run events = (f a).run events' := by
  rw [run_bind, h]

theorem run_bind_eq_ok {x : LoadM α} {f : α → LoadM β} {b : β} :
    (x >>= f).run events = (.ok b, events') ↔
      ∃ a mid, x.run events = (.ok a, mid) ∧ (f a).run mid = (.ok b, events') := by
  rw [run_bind]
  constructor
  · intro h
    split at h
    · exact ⟨_, _, ‹_›, h⟩
    · cases h
  · rintro ⟨a, mid, hx, hf⟩
    rw [hx]
    exact hf

theorem run_ofExcept_eq_ok {ε : Type} {wrap : ε → LoadError} {x : Except ε α} {a : α} :
    (ofExcept wrap x).run events = (.ok a, events') ↔ x = .ok a ∧ events = events' := by
  cases x with
  | ok b =>
    constructor
    · intro h
      cases h
      exact ⟨rfl, rfl⟩
    · rintro ⟨⟨⟩, rfl⟩
      rfl
  | error e => exact ⟨fun h => (nomatch h), fun h => (nomatch h.1)⟩

theorem run_note (event : LoadEvent) : (note event).run events = (.ok (), event :: events) := rfl

theorem run_forM_note {f : α → LoadEvent} : ∀ (as : List α) (events : List LoadEvent),
    (as.forM fun a => note (f a)).run events = (.ok (), (as.map f).reverse ++ events)
  | [], _ => rfl
  | a :: as, events => by
    show (note (f a) >>= fun _ => as.forM fun a => note (f a)).run events = _
    rw [run_bind_of_ok (run_note (f a)), run_forM_note as, List.map_cons, List.reverse_cons,
      List.append_assoc]
    rfl

/-- Every value that the step comes to is of the kind `P`. -/
def Ensures (x : LoadM α) (P : α → Prop) : Prop :=
  ∀ events a events', x.run events = (.ok a, events') → P a

theorem ensures_pure {a : α} (h : P a) : Ensures (pure a) P := by
  intro events b events' hb
  cases hb
  exact h

theorem ensures_throw (e : LoadError) : Ensures (throw e) P := by
  intro events a events' ha
  cases ha

namespace Ensures

theorem bind {x : LoadM α} {f : α → LoadM β} (hx : Ensures x P) (hf : ∀ a, P a → Ensures (f a) Q) :
    Ensures (x >>= f) Q := by
  intro events b events' h
  obtain ⟨a, mid, ha, hb⟩ := run_bind_eq_ok.1 h
  exact hf a (hx events a mid ha) mid b events' hb

/-- Whatever the first step comes to, the second comes to what is wanted. -/
theorem behind (x : LoadM α) {f : α → LoadM β} (hf : ∀ a, Ensures (f a) Q) :
    Ensures (x >>= f) Q := by
  have hx : Ensures x fun _ => True := fun _ _ _ _ => trivial
  exact hx.bind fun a _ => hf a

/-- What every round keeps, the loop keeps. -/
theorem foldlM {f : β → α → LoadM β} : ∀ {as : List α} {b : β},
    (∀ a ∈ as, ∀ b, Q b → Ensures (f b a) Q) → Q b → Ensures (as.foldlM f b) Q
  | [], b, _, hb => ensures_pure hb
  | a :: as, b, hf, hb => by
    rw [List.foldlM_cons]
    exact (hf a List.mem_cons_self b hb).bind fun b' hb' =>
      foldlM (fun a' ha' => hf a' (List.mem_cons_of_mem a ha')) hb'

end Ensures

end LoadM

open LoadM

/-! ## Messages -/

theorem compileMessage_eq_ok {path : String} {leaf : String × Resource.Leaf}
    {message : String × Entry} : compileMessage path leaf = .ok message ↔
      message.1 = leaf.1 ∧ leaf.2.Compiles message.2 := by
  obtain ⟨key, leaf⟩ := leaf
  obtain ⟨key', entry⟩ := message
  cases leaf with
  | text s =>
    rw [compileMessage, except_bind_eq_ok]
    simp only [except_mapError_eq_ok]
    constructor
    · rintro ⟨e, he, ⟨⟩⟩
      exact ⟨rfl, .single he⟩
    · rintro ⟨rfl, ⟨he⟩⟩
      exact ⟨_, he, rfl⟩
  | list items =>
    cases items with
    | nil =>
      constructor
      · intro h
        cases h
      · rintro ⟨-, h⟩
        cases h with
        | variants hne _ => exact absurd rfl hne
    | cons item items =>
      rw [compileMessage, except_bind_eq_ok]
      simp only [except_mapError_eq_ok, mapM_eq_ok]
      constructor
      · rintro ⟨es, hes, ⟨⟩⟩
        exact ⟨rfl, .variants (List.cons_ne_nil _ _) hes⟩
      · rintro ⟨rfl, h⟩
        cases h with
        | variants _ hes => exact ⟨_, hes, rfl⟩

/-- The messages are what the leaves compile to. -/
def CompileAll (leaves : List (String × Resource.Leaf)) (messages : List (String × Entry)) : Prop :=
  List.Forall₂ (fun leaf message => message.1 = leaf.1 ∧ leaf.2.Compiles message.2) leaves messages

/-- The events of reading a resource with these items. -/
def skipped (items : List (String × Option Resource.Leaf)) : List LoadEvent :=
  ((items.filterMap Resource.textless?).map .textless).reverse

theorem compile_eq_ok {path : String} {tree : Except ParseError Resource.Tree}
    {messages : List (String × Entry)} {events events' : List LoadEvent} :
    (compile path tree).run events = (.ok messages, events') ↔
      ∃ items, Resource.itemsOf tree = .ok items ∧
        CompileAll (items.filterMap Resource.message?) messages ∧
        events' = skipped items ++ events := by
  unfold compile
  simp only [run_bind_eq_ok, run_ofExcept_eq_ok, run_forM_note, mapM_eq_ok, compileMessage_eq_ok]
  constructor
  · rintro ⟨items, _, ⟨hitems, rfl⟩, _, _, ⟨⟩, hmessages, rfl⟩
    exact ⟨items, hitems, hmessages, rfl⟩
  · rintro ⟨items, hitems, hmessages, rfl⟩
    exact ⟨items, _, ⟨hitems, rfl⟩, (), _, rfl, hmessages, rfl⟩

/-- A key below the root, and canonical expressions, at least one. -/
structure IsMessage (message : String × Entry) : Prop where
  key       : Resource.IsBelow Resource.rootKey message.1
  variants  : message.2 ≠ .variants []
  canonical : ∀ e ∈ message.2.expressions, e.isCanonical = true

theorem isMessage_of_compiles {key : String} {leaf : Resource.Leaf} {entry : Entry}
    (hkey : Resource.IsBelow Resource.rootKey key) (h : leaf.Compiles entry) :
    IsMessage (key, entry) := by
  cases h with
  | single he =>
    refine ⟨hkey, nofun, fun e' he' => ?_⟩
    rw [List.mem_singleton.1 he']
    exact Template.isCanonical_of_parse he
  | variants hne hes =>
    refine ⟨hkey, ?_, fun e he => ?_⟩
    · rintro ⟨⟩
      cases hes
      exact hne rfl
    · obtain ⟨_, -, hparse⟩ := exists_of_mem_forall₂ hes e he
      exact Template.isCanonical_of_parse hparse

theorem mem_of_mem_messages {items : List (String × Option Resource.Leaf)} {key : String}
    {leaf : Resource.Leaf} (h : (key, leaf) ∈ items.filterMap Resource.message?) :
    (key, some leaf) ∈ items := by
  obtain ⟨⟨key', leaf?⟩, hmem, hmessage⟩ := List.mem_filterMap.1 h
  cases leaf? with
  | none => cases hmessage
  | some leaf' =>
    cases hmessage
    exact hmem

theorem ensures_compile (path : String) {tree : Except ParseError Resource.Tree}
    (htree : ∀ t, tree = .ok t → t.isNamed = true) :
    Ensures (compile path tree) fun messages => ∀ message ∈ messages, IsMessage message := by
  intro events messages events' h message hmessage
  obtain ⟨items, hitems, hmessages, -⟩ := compile_eq_ok.1 h
  obtain ⟨⟨key, leaf⟩, hleaf, hname, hcompiles⟩ := exists_of_mem_forall₂ hmessages message hmessage
  have hbelow : Resource.IsBelow Resource.rootKey key := by
    cases tree with
    | error e => cases hitems
    | ok t =>
      exact Resource.Tree.isBelow_of_items (htree t rfl) hitems _ (mem_of_mem_messages hleaf)
  exact isMessage_of_compiles (hname ▸ hbelow) hcompiles

/-! ## Collections -/

def AllMessages (entries : Entries) : Prop :=
  ∀ key entry, entries[key]? = some entry → IsMessage (key, entry)

theorem allMessages_empty : AllMessages ∅ := by
  intro key entry h
  rw [Std.TreeMap.getElem?_emptyc] at h
  cases h

theorem AllMessages.insert {entries : Entries} {key : String} {entry : Entry}
    (h : AllMessages entries) (hnew : IsMessage (key, entry)) :
    AllMessages (entries.insert key entry) := by
  intro key' entry' hget
  rw [Std.TreeMap.getElem?_insert] at hget
  split at hget
  · rename_i heq
    cases hget
    rw [← Std.LawfulEqCmp.eq_of_compare heq]
    exact hnew
  · exact h key' entry' hget

namespace Collection

theorem ensures_add (policy : DuplicatePolicy) (path : String) {c : Collection}
    (hc : AllMessages c.entries) {message : String × Entry} (hmessage : IsMessage message) :
    Ensures (add policy path c message) fun c' => AllMessages c'.entries := by
  obtain ⟨key, entry⟩ := message
  have hadded : AllMessages (c.entries.insert key entry) := hc.insert hmessage
  unfold add
  simp only
  split
  · exact ensures_pure hadded
  · cases policy with
    | overwrite => exact .behind _ fun _ => ensures_pure hadded
    | reject => exact .bind (ensures_throw _) fun _ => False.elim

theorem ensures_addAll (policy : DuplicatePolicy) (path : String) {c : Collection}
    (hc : AllMessages c.entries) {messages : List (String × Entry)}
    (hmessages : ∀ message ∈ messages, IsMessage message) :
    Ensures (addAll policy path c messages) fun c' => AllMessages c'.entries :=
  .foldlM (fun message hmem _ hc' => ensures_add policy path hc' (hmessages message hmem)) hc

theorem ensures_addFile (policy : DuplicatePolicy) {c : Collection} (hc : AllMessages c.entries)
    (file : String × Except IoFault ByteArray) :
    Ensures (addFile policy c file) fun c' => AllMessages c'.entries := by
  unfold addFile
  refine .behind _ fun bytes => ?_
  exact (ensures_compile file.1 fun _ => Resource.Tree.isNamed_of_ofBytes).bind fun messages h =>
    .behind _ fun _ => ensures_addAll policy file.1 hc h

theorem ensures_ofDirectory (policy : DuplicatePolicy) (disk : Disk) (dir : String) :
    Ensures (ofDirectory policy disk dir) fun c => AllMessages c.entries := by
  unfold ofDirectory
  exact .behind _ fun folder =>
    .foldlM (fun file _ _ hc => ensures_addFile policy hc file) allMessages_empty

theorem ensures_ofText (policy : DuplicatePolicy) (label text : String) :
    Ensures (ofText policy label text) fun c => AllMessages c.entries := by
  unfold ofText
  exact (ensures_compile label fun _ => Resource.Tree.isNamed_of_parse).bind fun messages h =>
    ensures_addAll policy label allMessages_empty h

end Collection

/-! ## Stores -/

namespace Store

variable {st : Store}

theorem install_of_ok {collected : LoadM Collection} {c : Collection} {events : List LoadEvent}
    (h : collected.run [] = (.ok c, events)) : st.install collected =
      ⟨{ st with entries := c.entries }, .ok c.entries.size, events.reverse⟩ := by
  rw [install, h]

theorem install_of_error {collected : LoadM Collection} {e : LoadError} {events : List LoadEvent}
    (h : collected.run [] = (.error e, events)) :
    st.install collected = ⟨st.clear, .error e, events.reverse⟩ := by
  rw [install, h]

theorem run_of_install {collected : LoadM Collection} {count : Nat}
    (h : (st.install collected).result = .ok count) :
    ∃ c events, collected.run [] = (.ok c, events) := by
  unfold install at h
  split at h
  · exact ⟨_, _, ‹_›⟩
  · cases h

/-- Loading replaces the messages and nothing else. -/
theorem install_store (st : Store) (collected : LoadM Collection) :
    (st.install collected).store = { st with entries := (st.install collected).store.entries } := by
  unfold install
  split <;> rfl

/-- What is collected does not depend on the store. -/
theorem install_congr (st st' : Store) (collected : LoadM Collection) :
    (st'.install collected).result = (st.install collected).result ∧
      (st'.install collected).store.entries = (st.install collected).store.entries ∧
      (st'.install collected).events = (st.install collected).events := by
  unfold install
  split <;> exact ⟨rfl, rfl, rfl⟩

/-- A store is as an attempt to load says: without messages if it failed, else with as many keys as
were counted. -/
def IsAsLoaded (st : Store) : Except LoadError Nat → Prop
  | .ok count => st.keys.length = count
  | .error _  => st.keys = []

theorem keys_of_entries_empty {st : Store} (h : st.entries = ∅) : st.keys = [] := by
  unfold keys
  rw [h]
  rfl

theorem isAsLoaded_congr {st st' : Store} (h : st.entries = st'.entries)
    (result : Except LoadError Nat) : st.IsAsLoaded result ↔ st'.IsAsLoaded result := by
  unfold IsAsLoaded keys
  rw [h]

end Store

/-- What is loaded are messages, all that are reported. -/
structure Loaded.IsSound (l : Loaded) : Prop where
  messages : AllMessages l.store.entries
  reported : l.store.IsAsLoaded l.result

namespace Store

theorem install_isSound (st : Store) {collected : LoadM Collection}
    (h : Ensures collected fun c => AllMessages c.entries) : (st.install collected).IsSound := by
  unfold install
  split
  · rename_i c events hrun
    exact ⟨h [] c events hrun, Std.TreeMap.length_keys⟩
  · exact ⟨allMessages_empty, keys_of_entries_empty rfl⟩

theorem init_isSound (st : Store) (disk : Disk) (dir : String) : (st.init disk dir).IsSound :=
  st.install_isSound (Collection.ensures_ofDirectory st.duplicates disk dir)

theorem loadText_isSound (st : Store) (label text : String) : (st.loadText label text).IsSound :=
  st.install_isSound (Collection.ensures_ofText st.duplicates label text)

theorem offerScripts_entries (st : Store) (disk : Disk) (dir : String) :
    (st.offerScripts disk dir).1.entries = st.entries := by
  unfold offerScripts
  split
  · rfl
  · split <;> rfl

/-- Without a script host, loading a locale is reading its resources. -/
theorem load_of_no_scripts {st : Store} (h : st.scripts = none) (disk : Disk)
    (name : String) :
    let first := (st.setLanguage (Language.ofCode name)).init disk (st.directory name)
    (st.load disk name).result = first.result ∧ (st.load disk name).store = first.store := by
  have hscripts : ((st.setLanguage (Language.ofCode name)).init disk
      (st.directory name)).store.scripts = none := by
    rw [init, install_store]
    simpa only [setLanguage] using h
  unfold load
  simp only
  generalize (st.setLanguage (Language.ofCode name)).init disk (st.directory name) = first
    at hscripts ⊢
  have hoffered : first.store.offerScripts disk (st.directory name) = (first.store, .ok (), []) := by
    rw [offerScripts, hscripts]
  rw [hoffered]
  cases hresult : first.result with
  | error e => exact ⟨hresult, rfl⟩
  | ok count => exact ⟨rfl, rfl⟩

theorem load_isSound (st : Store) (disk : Disk) (name : String) : (st.load disk name).IsSound := by
  have hfirst := (st.setLanguage (Language.ofCode name)).init_isSound disk (st.directory name)
  unfold load
  simp only
  generalize (st.setLanguage (Language.ofCode name)).init disk (st.directory name) = first
    at hfirst ⊢
  cases hresult : first.result with
  | error e => exact hfirst
  | ok count =>
    have hentries := first.store.offerScripts_entries disk (st.directory name)
    generalize first.store.offerScripts disk (st.directory name) = offered at hentries ⊢
    obtain ⟨store, result, events⟩ := offered
    cases result with
    -- the resources are installed by now, and taken out again
    | error e => exact ⟨allMessages_empty, keys_of_entries_empty rfl⟩
    | ok =>
      have hreported : first.store.IsAsLoaded (.ok count) := hresult ▸ hfirst.reported
      exact ⟨hentries ▸ hfirst.messages, (isAsLoaded_congr hentries _).2 hreported⟩

end Store

end Phrasebook
