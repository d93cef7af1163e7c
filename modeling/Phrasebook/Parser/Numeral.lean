import Phrasebook.Double
import Phrasebook.Integer
import Phrasebook.Parser.Basic
/-!
# Numerals — `-12` and `-12.50`, the one spelling of numbers in resources and spans

A numeral is an optional minus sign, digits, and perhaps a point with more digits; there is no
exponent.
-/
namespace Phrasebook

structure Numeral where
  negative : Bool
  whole    : List Char
  /-- The digits behind the point, if there is one. -/
  places   : Option (List Char)
deriving DecidableEq, Repr

namespace Numeral

def toDouble (n : Numeral) : Double :=
  let places := n.places.getD []
  Double.ofDecimal n.negative (decimalValue (n.whole ++ places)) (-(places.length : Int))

/-- The whole part with its sign, if it is a 64-bit integer. -/
def toInt64? (n : Numeral) : Option Int64 :=
  let magnitude : Int := decimalValue n.whole
  Phrasebook.toInt64? (if n.negative then -magnitude else magnitude)

def parse : Parser Numeral := do
  let sign ← Parser.optional (Parser.char '-')
  let whole ← Parser.takeSome Char.isDigit
  let places ← Parser.optional (do let _ ← Parser.char '.'; Parser.takeSome Char.isDigit)
  pure ⟨sign.isSome, whole, places⟩

end Numeral

end Phrasebook
