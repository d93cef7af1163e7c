import Std.Data.TreeSet
import Phrasebook.Store.Basic
/-!
# Lint — calls of functions that nobody defines

An unknown function never stops a message from rendering; it leaves a placeholder.  Lint finds such
calls before anyone reads one.
-/
namespace Phrasebook

/-- A name that no table knows for the language, in the message of a key. -/
structure LintWarning where
  key         : String
  name        : String
  suggestions : List String
deriving DecidableEq, Repr

def LintWarning.message (w : LintWarning) : String :=
  "'" ++ w.key ++ "': unknown function '" ++ w.name ++ "'" ++
    if w.suggestions.isEmpty then ""
    else " (did you mean: " ++ ", ".intercalate w.suggestions ++ "?)"

def Entry.names (e : Entry) : List String := e.expressions.flatMap Expression.names

/-- Texts in ascending order, each once. -/
def ascending (texts : List String) : List String :=
  (Std.TreeSet.ofList texts).toList

/-- The names that some table knows for a language. -/
def Registry.known (r : Registry) (language : Language) : List String :=
  SubjectKind.all.flatMap fun kind => r.names kind language

/-- The names in an entry that no table knows for the language, in ascending order. -/
def Registry.unknownIn (r : Registry) (language : Language) (e : Entry) : List String :=
  ascending (e.names.filter fun name => !r.hasAny name language)

/-- The warnings about one entry, one for each unknown name. -/
def lintEntry (r : Registry) (language : Language) (key : String) (e : Entry) :
    List LintWarning :=
  (r.unknownIn language e).map fun name => ⟨key, name, suggestions name (r.known language)⟩

def Store.lint (s : Store) : List LintWarning :=
  s.entries.toList.flatMap fun (key, e) => lintEntry s.registry s.language key e

end Phrasebook
