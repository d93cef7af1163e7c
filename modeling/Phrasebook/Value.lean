import Phrasebook.Double
import Phrasebook.Integer
import Phrasebook.Text.Blank
/-!
# Values — arguments of functions and of lookups

A `Value.key` names another message; it has no text until that message is rendered.
-/
namespace Phrasebook

inductive Value where
  | int (n : Int64)
  | float (x : Double)
  | bool (b : Bool)
  | str (text : String)
  /-- The dotted key of a message. -/
  | key (path : String)
deriving DecidableEq, Repr, Inhabited

namespace Value

/-- Numbers in decimal, truth values by their English names, texts and keys as they are. -/
def display : Value → String
  | .int n   => String.ofList (decimal n.toInt)
  | .float x => x.display
  | .bool b  => if b then "true" else "false"
  | .str s   => s
  | .key s   => s

/-- As an integer: a whole float is clamped to 64 bits, a text is read without the blanks around
it. -/
def asInt : Value → Option Int64
  | .int n   => some n
  | .float x => x.toInt?.map clampInt64
  | .str s   => readInt64? (Text.strip s.toList)
  | .bool _  => none
  | .key _   => none

/-- As a truth value: an integer is true unless it is zero, a text must read `true` or `false`. -/
def asBool : Value → Option Bool
  | .bool b  => some b
  | .int n   => some (n != 0)
  | .str s   =>
    match String.ofList (Text.strip s.toList) with
    | "true"  => some true
    | "false" => some false
    | _       => none
  | .float _ => none
  | .key _   => none

/-- As text: everything but a key. -/
def asText : Value → Option String
  | .key _ => none
  | v      => some v.display

end Value

end Phrasebook
