import Std.Data.TreeMap
import Phrasebook.Builtin.Standard
import Phrasebook.Render.Basic
/-!
# Stores — the messages of one locale, and all that rendering them needs
-/
namespace Phrasebook

/-- What becomes of a key that is defined twice. -/
inductive DuplicatePolicy where
  /-- The last definition counts. -/
  | overwrite
  /-- The locale is not loaded. -/
  | reject
deriving DecidableEq, Repr, Inhabited

abbrev Entries := Std.TreeMap String Entry

structure Store where
  source     : Source
  /-- The directory that holds one directory per locale. -/
  root       : String := "lang"
  language   : Language := .english
  registry   : Registry := .standard
  duplicates : DuplicatePolicy := .overwrite
  /-- The most keys that may render inside each other. -/
  maxDepth   : Nat := 16
  scripts    : Option ScriptHost := none
  entries    : Entries := ∅

namespace Store

def get? (s : Store) (key : String) : Option Entry := s.entries[key]?

def contains (s : Store) (key : String) : Bool := s.entries.contains key

/-- Every key, in ascending order. -/
def keys (s : Store) : List String := s.entries.keys

def size (s : Store) : Nat := s.entries.size

def isEmpty (s : Store) : Bool := s.entries.isEmpty

def setLanguage (s : Store) (language : Language) : Store := { s with language := language }

/-- What the script host knows about a key. -/
def raw? (s : Store) (key : String) : Option RawText :=
  s.scripts.bind fun host => host.raw? key

/-- What the messages of the store are rendered against. -/
def scene (s : Store) (subject : Subject) (args : List Value) : Scene :=
  { entry? := s.get?, raw? := s.raw?, registry := s.registry, language := s.language,
    subject := subject, args := args }

def lookupWith (s : Store) (key : String) (subject : Subject) (args : List Value) : Rendering :=
  (s.scene subject args).render s.maxDepth s.source key

def lookup (s : Store) (key : String) (subject : Subject) : Rendering := s.lookupWith key subject []

def evaluate (s : Store) (e : Expression) (subject : Subject) (args : List Value)
    (stack : KeyStack) : Rendering :=
  (s.scene subject args).evaluate stack s.source e

/-- The store after a rendering, which has used up a part of the random source. -/
def after (s : Store) (r : Rendering) : Store := { s with source := r.source }

end Store

end Phrasebook
