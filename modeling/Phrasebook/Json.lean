import Phrasebook.Text.Quoted
/-!
# JSON — the shape of machine-readable output

Values are written over several lines, two spaces for each level.
-/
namespace Phrasebook

inductive Json where
  | str (text : String)
  | num (n : Nat)
  | arr (items : List Json)
  | obj (fields : List (String × Json))
deriving Repr, Inhabited

namespace Json

/-- The start of a line at a level. -/
def newline (level : Nat) : String := "\n" ++ String.ofList (List.replicate (2 * level) ' ')

mutual

/-- The value in a line that stands at a level. -/
def pretty (level : Nat) : Json → String
  | .str text              => Text.Quoted.json text
  | .num n                 => toString n
  | .arr []                => "[]"
  | .arr (item :: items)   =>
    "[" ++ newline (level + 1) ++ item.pretty (level + 1) ++ prettyItems (level + 1) items ++
      newline level ++ "]"
  | .obj []                => "\x7b\x7d"
  | .obj ((name, value) :: fields) =>
    "\x7b" ++ newline (level + 1) ++ Text.Quoted.json name ++ ": " ++ value.pretty (level + 1) ++
      prettyFields (level + 1) fields ++ newline level ++ "\x7d"

/-- Items behind the first one. -/
def prettyItems (level : Nat) : List Json → String
  | []            => ""
  | item :: items => "," ++ newline level ++ item.pretty level ++ prettyItems level items

/-- Fields behind the first one. -/
def prettyFields (level : Nat) : List (String × Json) → String
  | []                      => ""
  | (name, value) :: fields =>
    "," ++ newline level ++ Text.Quoted.json name ++ ": " ++ value.pretty level ++
      prettyFields level fields

end

def texts (items : List String) : Json := .arr (items.map .str)

def render (j : Json) : String := j.pretty 0

end Json

end Phrasebook
