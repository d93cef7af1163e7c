import Phrasebook.Disk.Basic
import Phrasebook.Resource.Grammar
import Phrasebook.Store.Basic
import Phrasebook.Store.Error
import Phrasebook.Template.Grammar
/-!
# Loading — all messages of a locale or none

Resources are compiled one after the other, in the order of their names, and collected; only a
complete collection becomes the entries of the store.  Whatever fails leaves the store empty.
-/
namespace Phrasebook

/-- Loading may fail, and reports events, the newest first. -/
abbrev LoadM := ExceptT LoadError (StateM (List LoadEvent))

namespace LoadM

def note (event : LoadEvent) : LoadM Unit := modify (event :: ·)

/-- Passes the value on, or fails with what the cause amounts to. -/
def ofExcept {ε α : Type} (wrap : ε → LoadError) : Except ε α → LoadM α
  | .ok a    => pure a
  | .error e => throw (wrap e)

end LoadM

/-! ## Resources -/

def resourceExtension : String := "hcl"

def scriptExtension : String := "lua"

def compileMessage (path : String) : String × Resource.Leaf → Except LoadError (String × Entry)
  | (key, .text s)                => do
    let e ← (Expression.parse s).mapError (.template path key)
    pure (key, .single e)
  | (key, .list [])               => .error (.emptyList path key)
  | (key, .list (item :: items)) => do
    let es ← ((item :: items).mapM Expression.parse).mapError (.template path key)
    pure (key, .variants es)

/-- The items of a resource. -/
def Resource.itemsOf (tree : Except ParseError Resource.Tree) :
    Except ParseError (List (String × Option Resource.Leaf)) :=
  tree.bind Resource.Tree.items

/-- Compiles the messages of the resource at a path, in source order. -/
def compile (path : String) (tree : Except ParseError Resource.Tree) :
    LoadM (List (String × Entry)) := do
  let items ← LoadM.ofExcept (.resource path) (Resource.itemsOf tree)
  (items.filterMap Resource.textless?).forM fun key => LoadM.note (.textless key)
  LoadM.ofExcept id ((items.filterMap Resource.message?).mapM (compileMessage path))

/-! ## Collections -/

/-- The messages collected so far, and where each was defined last. -/
structure Collection where
  entries : Entries := ∅
  origins : Std.TreeMap String String := ∅

def Collection.add (policy : DuplicatePolicy) (path : String) (c : Collection)
    (message : String × Entry) : LoadM Collection := do
  let (key, entry) := message
  match c.origins[key]? with
  | none       => pure ()
  | some first =>
    match policy with
    | .overwrite => LoadM.note (.overwritten key first path)
    | .reject    => throw (.duplicate key first path)
  pure ⟨c.entries.insert key entry, c.origins.insert key path⟩

def Collection.addAll (policy : DuplicatePolicy) (path : String) (c : Collection)
    (messages : List (String × Entry)) : LoadM Collection :=
  messages.foldlM (Collection.add policy path) c

def Collection.addFile (policy : DuplicatePolicy) (c : Collection)
    (file : String × Except IoFault ByteArray) : LoadM Collection := do
  let (path, content) := file
  let bytes ← LoadM.ofExcept (.unreadable path) content
  let messages ← compile path (Resource.Tree.ofBytes bytes)
  LoadM.note (.loadedFile path messages.length)
  c.addAll policy path messages

/-- The messages of all resource files directly in a directory. -/
def Collection.ofDirectory (policy : DuplicatePolicy) (disk : Disk) (dir : String) :
    LoadM Collection := do
  let folder ← LoadM.ofExcept (.unreadable dir) (disk.folder dir)
  (folder.files dir resourceExtension).foldlM (Collection.addFile policy) {}

def Collection.ofText (policy : DuplicatePolicy) (label text : String) : LoadM Collection := do
  let messages ← compile label (Resource.Tree.parse text)
  Collection.addAll policy label {} messages

/-! ## Stores -/

/-- A store after an attempt to load, the number of keys or the error, and the events, oldest
first. -/
structure Loaded where
  store  : Store
  result : Except LoadError Nat
  events : List LoadEvent

namespace Store

/-- The same store without messages. -/
def clear (s : Store) : Store := { s with entries := ∅ }

/-- The store with what was collected in place of its entries. -/
def install (s : Store) (collected : LoadM Collection) : Loaded :=
  match collected.run [] with
  | (.ok c, events)    => ⟨{ s with entries := c.entries }, .ok c.entries.size, events.reverse⟩
  | (.error e, events) => ⟨s.clear, .error e, events.reverse⟩

def init (s : Store) (disk : Disk) (dir : String) : Loaded :=
  s.install (Collection.ofDirectory s.duplicates disk dir)

/-- Replaces the messages by those of one resource in memory; the label stands for its path. -/
def loadText (s : Store) (label text : String) : Loaded :=
  s.install (Collection.ofText s.duplicates label text)

/-- The paths of the resource files of a directory, in the order in which they are read. -/
def resourceFiles (disk : Disk) (dir : String) : Except LoadError (List String) :=
  match disk.folder dir with
  | .ok folder   => .ok ((folder.files dir resourceExtension).map Prod.fst)
  | .error fault => .error (.unreadable dir fault)

/-- Offers the scripts at the paths to a host, up to the first that is refused. -/
def offer (host : ScriptHost) : List String → ScriptHost × Except LoadError Unit × List LoadEvent
  | []            => (host, .ok (), [])
  | path :: paths =>
    match host.load path with
    | .error words => (host, .error (.script path words), [.offeredScript path])
    | .ok host     =>
      let (host, result, events) := offer host paths
      (host, result, .offeredScript path :: events)

/-- Offers the scripts of a directory to the script host, if there is one. -/
def offerScripts (s : Store) (disk : Disk) (dir : String) :
    Store × Except LoadError Unit × List LoadEvent :=
  match s.scripts with
  | none      => (s, .ok (), [])
  | some host =>
    match disk.folder dir with
    | .error fault => (s, .error (.unreadable dir fault), [])
    | .ok folder   =>
      let (host, result, events) := offer host ((folder.files dir scriptExtension).map Prod.fst)
      ({ s with scripts := some host }, result, events)

def directory (s : Store) (name : String) : String := Path.join s.root name

/-- Loads a locale by the name of its directory: switches the language, reads the resources, then
offers the scripts.  A script that is refused leaves the store empty. -/
def load (s : Store) (disk : Disk) (name : String) : Loaded :=
  let dir := s.directory name
  let first := (s.setLanguage (Language.ofCode name)).init disk dir
  match first.result with
  | .error _ => first
  | .ok keys =>
    match first.store.offerScripts disk dir with
    | (store, .error e, events) => ⟨store.clear, .error e, first.events ++ events⟩
    | (store, .ok (), events)   =>
      ⟨store, .ok keys, first.events ++ events ++ [.loadedLocale name keys]⟩

end Store

end Phrasebook
