import Phrasebook.Power
/-!
# Double-precision numbers — their bits, their value, and their decimal text

A `Double` is its 64 bits, so that equality is equality of bits and every statement about a value is
one about natural numbers: a finite double is `± significand · 2 ^ exponent`.  Reading rounds an
exact ratio once, to the nearest double, a tie to the even significand.  Writing takes the fewest
digits that read back.
-/
namespace Phrasebook

/-- A double-precision floating-point number, as its bits. -/
structure Double where
  bits : UInt64
deriving DecidableEq, Repr, Inhabited

namespace Double

/-! ## The parts of the bits -/

/-- The value of the sign bit, two to the power of 63. -/
def signUnit : Nat := 0x8000000000000000

/-- The value of the lowest bit of the exponent, two to the power of 52. -/
def exponentUnit : Nat := 0x10000000000000

def negative (x : Double) : Bool := decide (signUnit ≤ x.bits.toNat)

/-- The biased exponent, 0 for subnormal values and 2047 for infinities and NaN. -/
def biased (x : Double) : Nat := x.bits.toNat / exponentUnit % 2048

def fraction (x : Double) : Nat := x.bits.toNat % exponentUnit

def isFinite (x : Double) : Bool := decide (x.biased ≠ 2047)

def isNaN (x : Double) : Bool := decide (x.biased = 2047 ∧ x.fraction ≠ 0)

def significand (x : Double) : Nat :=
  if x.biased = 0 then x.fraction else exponentUnit + x.fraction

/-- The power of two that scales the significand of a finite value. -/
def exponent (x : Double) : Int := (max x.biased 1 : Nat) - 1075

/-- The magnitude of a finite value, as numerator and denominator. -/
def magnitude (x : Double) : Nat × Nat :=
  if 0 ≤ x.exponent then (x.significand * twoTo x.exponent.toNat, 1)
  else (x.significand, twoTo (-x.exponent).toNat)

/-! ## Building and reading -/

def signBit (negative : Bool) : Nat := if negative then signUnit else 0

def ofParts (negative : Bool) (magnitudeBits : Nat) : Double :=
  ⟨UInt64.ofNat (signBit negative + magnitudeBits)⟩

def infinity (negative : Bool) : Double := ofParts negative (2047 * exponentUnit)

def nan : Double := ofParts false (2047 * exponentUnit + exponentUnit / 2)

/-- The quotient rounded to the nearest integer, a tie to the even one. -/
def divideToEven (num den : Nat) : Nat :=
  let quotient := num / den
  let rest := num % den
  if 2 * rest < den then quotient
  else if den < 2 * rest then quotient + 1
  else quotient + quotient % 2

/-- `num / den` scaled by `2 ^ (-power)` and rounded. -/
def scaled (num den : Nat) (power : Int) : Nat :=
  if 0 ≤ power then divideToEven num (den * twoTo power.toNat)
  else divideToEven (num * twoTo (-power).toNat) den

/-- The power of two whose multiples are the doubles around `num / den`: the quotient has 53 binary
digits in front of it, or it is the least power there is. -/
def gridPower (num den : Nat) : Int :=
  let guess : Int := (Nat.log2 num : Int) - Nat.log2 den - 53
  let above : Bool :=
    if 0 ≤ guess then decide (den * twoTo guess.toNat * (2 * exponentUnit) ≤ num)
    else decide (den * (2 * exponentUnit) ≤ num * twoTo (-guess).toNat)
  max (if above then guess + 1 else guess) (-1074)

/-- The double nearest to `num / den`, a tie to the even significand; too large a ratio is
infinite.  A significand that rounds up to 53 binary digits and one carries into the exponent. -/
def ofRatio (negative : Bool) (num den : Nat) : Double :=
  if num = 0 then ofParts negative 0
  else
    let power := gridPower num den
    let magnitudeBits := (power + 1074).toNat * exponentUnit + scaled num den power
    ofParts negative (min magnitudeBits (2047 * exponentUnit))

/-- The double nearest to `digits · 10 ^ power`. -/
def ofDecimal (negative : Bool) (digits : Nat) (power : Int) : Double :=
  if 0 ≤ power then ofRatio negative (digits * tenTo power.toNat) 1
  else ofRatio negative digits (tenTo (-power).toNat)

/-! ## Whole values -/

/-- The integer that the value is, if it is one. -/
def toInt? (x : Double) : Option Int :=
  if x.isFinite then
    let (num, den) := x.magnitude
    if num % den = 0 then
      some (if x.negative then -((num / den : Nat) : Int) else ((num / den : Nat) : Int))
    else none
  else none

/-! ## Shortest decimal text

The doubles next to a value leave an interval of reals that round to it; its ends belong to it when
the significand is even.  Walking the decimal grids from coarse to fine, the first one with a point
in the interval has the fewest digits.  Only the two grid points around the value need a look; of
two hits the nearer is taken, and of two equally near the larger. -/

/-- The interval of reals that round to a positive finite value, all over one denominator. -/
structure Interval where
  low    : Nat
  value  : Nat
  high   : Nat
  den    : Nat
  closed : Bool

/-- Below a power of two the neighbour is half as far away as above it. -/
def interval (x : Double) : Interval :=
  let (num, den) := x.magnitude
  let step := num / x.significand
  let below := if x.fraction = 0 ∧ 1 < x.biased then step else 2 * step
  { low := 4 * num - below, value := 4 * num, high := 4 * num + 2 * step, den := 4 * den,
    closed := decide (x.significand % 2 = 0) }

/-- Does `k · 10 ^ power` lie in the interval? -/
def Interval.holds (i : Interval) (k : Nat) (power : Int) : Bool :=
  let point := if 0 ≤ power then k * tenTo power.toNat * i.den else k * i.den
  let scale := if 0 ≤ power then 1 else tenTo (-power).toNat
  if i.closed then decide (i.low * scale ≤ point) && decide (point ≤ i.high * scale)
  else decide (i.low * scale < point) && decide (point < i.high * scale)

/-- The point of the grid of `10 ^ power` that writes the value, if one does. -/
def Interval.onGrid (i : Interval) (power : Int) : Option Nat :=
  let den := if 0 ≤ power then i.den * tenTo power.toNat else i.den
  let num := if 0 ≤ power then i.value else i.value * tenTo (-power).toNat
  let down := num / den
  match i.holds down power, i.holds (down + 1) power with
  | true,  true  => some (if 2 * (num % den) < den then down else down + 1)
  | true,  false => some down
  | false, true  => some (down + 1)
  | false, false => none

/-- The first hit on the grids from `10 ^ power` down to `10 ^ (power - steps)`. -/
def Interval.shortestFrom (i : Interval) (power : Int) : Nat → Nat × Int
  | 0         => (0, power)
  | steps + 1 =>
    match i.onGrid power with
    | some k => (k, power)
    | none   => i.shortestFrom (power - 1) steps

/-- Digits and power of ten of a positive finite value.  No double reaches `10 ^ 309`, and every
double is on the grid of `10 ^ (-1074)`. -/
def shortest (x : Double) : Nat × Int := x.interval.shortestFrom 309 1384

/-- `digits · 10 ^ power` without an exponent. -/
def positional (digits : Nat) (power : Int) : String :=
  let ds := Nat.toDigits 10 digits
  if 0 ≤ power then String.ofList (ds ++ List.replicate power.toNat '0')
  else
    let places := (-power).toNat
    let padded := List.replicate (places + 1 - ds.length) '0' ++ ds
    let (whole, behind) := padded.splitAt (padded.length - places)
    String.ofList (whole ++ '.' :: behind)

/-- The value in decimal, never with an exponent: the fewest digits that read back, and no point
after a whole value. -/
def display (x : Double) : String :=
  if x.isNaN then "NaN"
  else
    let sign := if x.negative then "-" else ""
    if !x.isFinite then sign ++ "inf"
    else if x.significand = 0 then sign ++ "0"
    else
      let (digits, power) := x.shortest
      sign ++ positional digits power

/-! ## Arithmetic of a percentage -/

/-- The product of a nonnegative finite value and a natural number, rounded once. -/
def scaleBy (x : Double) (n : Nat) : Double :=
  let (num, den) := x.magnitude
  ofRatio false (num * n) den

/-- A nonnegative finite value rounded to a whole number, a tie to the even one. -/
def round (x : Double) : Nat :=
  let (num, den) := x.magnitude
  divideToEven num den

end Double

end Phrasebook
