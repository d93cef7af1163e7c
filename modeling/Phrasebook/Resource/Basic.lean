import Phrasebook.Double
import Phrasebook.ParseError
/-!
# Resources — the tree of a resource file, and its leaves

A resource file holds named values; blocks nest them.  The messages are the strings and lists of
strings below the one top-level entry `locale`, each known by the dotted path of the names on its
way, rooted at `core.locale`.
-/
namespace Phrasebook.Resource

inductive Value where
  | text (s : String)
  | list (items : List String)
  | block (entries : List (String × Value))
  | number (x : Double)
  | bool (b : Bool)
deriving Repr, Inhabited

/-- The top-level entries of a file, in source order. -/
structure Tree where
  entries : List (String × Value)
deriving Repr, Inhabited

/-- A value that carries text. -/
inductive Leaf where
  | text (s : String)
  | list (items : List String)
deriving DecidableEq, Repr

/-- Where the keys of all messages begin. -/
def rootKey : String := "core.locale"

/-- The name of the one top-level block with the messages. -/
def localeName : String := "locale"

def isLocale (entry : String × Value) : Bool := entry.1 == localeName

/-- The entries of the one top-level `locale` block. -/
def Tree.localeRoot (t : Tree) : Except ParseError (List (String × Value)) :=
  match t.entries.filter isLocale with
  | []                         => .error .missingLocale
  | [(_, Value.block entries)] => .ok entries
  | [_]                        => .error .missingLocale
  | _ :: _ :: _                => .error .duplicateLocale

def below (key name : String) : String := key ++ "." ++ name

mutual

/-- What stands under a key, depth first in source order: messages, and `none` for a value without
text. -/
def Value.items (key : String) : Value → List (String × Option Leaf)
  | .text s        => [(key, some (.text s))]
  | .list items    => [(key, some (.list items))]
  | .block entries => itemsBelow key entries
  | .number _      => [(key, none)]
  | .bool _        => [(key, none)]

def itemsBelow (key : String) : List (String × Value) → List (String × Option Leaf)
  | []                     => []
  | (name, value) :: entries => value.items (below key name) ++ itemsBelow key entries

end

/-- Everything under the `locale` block, with its dotted key. -/
def Tree.items (t : Tree) : Except ParseError (List (String × Option Leaf)) :=
  t.localeRoot.map (itemsBelow rootKey)

/-- An item with text in it. -/
def message? : String × Option Leaf → Option (String × Leaf)
  | (key, some leaf) => some (key, leaf)
  | (_,   none)      => none

/-- The key of an item without text. -/
def textless? : String × Option Leaf → Option String
  | (_,   some _) => none
  | (key, none)   => some key

/-- The messages of a file, in source order.  Numbers and booleans carry no text. -/
def Tree.flatten (t : Tree) : Except ParseError (List (String × Leaf)) :=
  t.items.map (List.filterMap message?)

end Phrasebook.Resource
