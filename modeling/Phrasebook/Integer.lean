/-!
# Integers — 64-bit signed integers and their decimal text
-/
namespace Phrasebook

def decimalValue (digits : List Char) : Nat :=
  digits.foldl (fun n c => n * 10 + (c.toNat - '0'.toNat)) 0

/-- Decimal digits, with a minus sign in front of a negative number. -/
def decimal (n : Int) : List Char :=
  if n < 0 then '-' :: Nat.toDigits 10 n.natAbs else Nat.toDigits 10 n.natAbs

/-- An integer that fits into 64 bits with its sign. -/
def toInt64? (n : Int) : Option Int64 :=
  if -0x8000000000000000 ≤ n ∧ n < 0x8000000000000000 then some (Int64.ofInt n) else none

def clampInt64 (n : Int) : Int64 :=
  Int64.ofInt (max (-0x8000000000000000) (min n 0x7fffffffffffffff))

/-- The value of a text of digits and nothing else, at least one. -/
def readDigits? (cs : List Char) : Option Nat :=
  if !cs.isEmpty && cs.all Char.isDigit then some (decimalValue cs) else none

/-- Reads a decimal integer with at most one sign. -/
def readInt? : List Char → Option Int
  | '-' :: digits => (readDigits? digits).map fun n => -(n : Int)
  | '+' :: digits => (readDigits? digits).map Int.ofNat
  | digits        => (readDigits? digits).map Int.ofNat

/-- Reads a decimal integer that fits into 64 bits. -/
def readInt64? (cs : List Char) : Option Int64 := (readInt? cs).bind toInt64?

end Phrasebook
