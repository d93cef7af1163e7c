import Phrasebook.Proofs.Store.Loading
/-!
# Sessions — all that a host program does with a store, one thing after another

The host loads, switches languages, registers functions and looks keys up, in any order, while the
disk changes as it likes between two loads.  Only a load touches the messages, so what a load leaves
behind lasts until the next one.
-/
namespace Phrasebook

inductive Operation where
  | init (disk : Disk) (dir : String)
  | load (disk : Disk) (name : String)
  | loadText (label text : String)
  | setLanguage (language : Language)
  | register (change : Registry → Registry)
  | lookup (key : String) (subject : Subject) (args : List Value)
  /-- The runtime behind the store has come to know and to accept something else. -/
  | script (host : Option ScriptHost)

/-- A store, and what the most recent attempt to load it came to. -/
structure Session where
  store : Store
  last  : Option (Except LoadError Nat)

namespace Session

/-- A new store with these settings. -/
def new (settings : Store) : Session := ⟨settings.clear, none⟩

def afterLoad (l : Loaded) : Session := ⟨l.store, some l.result⟩

def change (s : Session) (f : Store → Store) : Session := { s with store := f s.store }

def step (s : Session) : Operation → Session
  | .init disk dir           => afterLoad (s.store.init disk dir)
  | .load disk name          => afterLoad (s.store.load disk name)
  | .loadText label text     => afterLoad (s.store.loadText label text)
  | .setLanguage language    => s.change fun st => st.setLanguage language
  | .register change         => s.change fun st => { st with registry := change st.registry }
  | .lookup key subject args => s.change fun st => st.after (st.lookupWith key subject args)
  | .script host             => s.change fun st => { st with scripts := host }

def run (s : Session) (operations : List Operation) : Session := operations.foldl step s

/-- The messages are those of the most recent load, all that it reported, if there was one. -/
structure IsSound (s : Session) : Prop where
  messages : AllMessages s.store.entries
  unloaded : s.last = none → s.store.keys = []
  reported : ∀ result ∈ s.last, s.store.IsAsLoaded result

theorem new_isSound (settings : Store) : (new settings).IsSound where
  messages := allMessages_empty
  unloaded _ := Store.keys_of_entries_empty rfl
  reported _ h := nomatch h

theorem afterLoad_isSound {l : Loaded} (h : l.IsSound) : (afterLoad l).IsSound where
  messages := h.messages
  unloaded h := nomatch h
  reported result hresult := by
    cases hresult
    exact h.reported

theorem IsSound.of_entries {s s' : Session} (h : s.IsSound)
    (hentries : s'.store.entries = s.store.entries) (hlast : s'.last = s.last) : s'.IsSound where
  messages := by
    rw [hentries]
    exact h.messages
  unloaded hnone := by
    rw [Store.keys, hentries]
    exact h.unloaded (hlast ▸ hnone)
  reported result hresult :=
    (Store.isAsLoaded_congr hentries result).2 (h.reported result (hlast ▸ hresult))

theorem IsSound.step {s : Session} (h : s.IsSound) (operation : Operation) :
    (s.step operation).IsSound := by
  cases operation with
  | init disk dir => exact afterLoad_isSound (s.store.init_isSound disk dir)
  | load disk name => exact afterLoad_isSound (s.store.load_isSound disk name)
  | loadText label text => exact afterLoad_isSound (s.store.loadText_isSound label text)
  | setLanguage | register | lookup | script => exact h.of_entries rfl rfl

theorem IsSound.run {s : Session} (h : s.IsSound) (operations : List Operation) :
    (s.run operations).IsSound := by
  induction operations generalizing s with
  | nil => exact h
  | cons operation operations ih => exact ih (h.step operation)

/-- **The messages of a store, whatever happened to it**: keys of names below the root, entries of
canonical expressions, at least one, and as many of them as the most recent load reported. -/
theorem run_invariant (settings : Store) (operations : List Operation) :
    let s := (new settings).run operations
    (∀ key ∈ s.store.keys, Resource.IsBelow "core.locale" key) ∧
      (∀ key es, s.store.get? key = some (.variants es) → es ≠ []) ∧
      (∀ key entry, s.store.get? key = some entry →
        ∀ e ∈ entry.expressions, e.isCanonical = true) ∧
      match s.last with
      | none              => s.store.keys = []
      | some (.error _)   => s.store.keys = []
      | some (.ok number) => s.store.keys.length = number := by
  intro s
  have hs : s.IsSound := (new_isSound settings).run operations
  refine ⟨fun key hkey => ?_, fun key es hentry => ?_, fun key entry hentry => ?_, ?_⟩
  · have hmem : key ∈ s.store.entries := Std.TreeMap.mem_keys.1 hkey
    have hget : s.store.entries[key]? = some s.store.entries[key] :=
      Std.TreeMap.getElem?_eq_some_getElem hmem
    exact (hs.messages key _ hget).key
  · rintro rfl
    exact (hs.messages key _ hentry).variants rfl
  · exact (hs.messages key entry hentry).canonical
  · cases hlast : s.last with
    | none => exact hs.unloaded hlast
    | some result =>
      have hreported : s.store.IsAsLoaded result := hs.reported result hlast
      cases result with
      | error e => exact hreported
      | ok number => exact hreported

/-- A script that is refused takes the messages with it. -/
example :
    let host : ScriptHost := { raw? := fun _ => none, refusal? := fun _ => some "no scripts" }
    let disk : Disk := ⟨fun _ => .ok [("a.lua", .file (.ok .empty))], fun _ => true⟩
    let s := (new { source := .cycle #[] }).run
      [.loadText "a.hcl" "locale \x7b a = [\"x\", \"$\"] \x7d", .script (some host)]
    s.store.keys = ["core.locale.a"] ∧ (s.run [.load disk "en"]).store.keys = [] := by
  decide +kernel

end Session

end Phrasebook
