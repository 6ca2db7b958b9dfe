/-!
Contract: double-precision numbers as 64-bit words.

A number is its interchange word: one sign bit, eleven exponent bits, 52
fraction bits. Every finite magnitude is a whole number of units of 2^-1074,
so values, rounding and order are exact arithmetic on natural numbers.
`nearest` rounds a quotient to the nearest magnitude, ties to the even one.

Owns: classification, exact value, rounding to nearest, numeric equality and
the total order of words.
Does not own: decimal text (`Depot.Decimal.Shortest`, `Depot.Decimal.Reader`).
-/

namespace Depot.Decimal

/-- Round a quotient to the nearest natural number, ties to the even one. -/
def roundDiv (numerator denominator : Nat) : Nat :=
  let quotient := numerator / denominator
  let remainder := numerator % denominator
  if denominator < 2 * remainder || (denominator = 2 * remainder && quotient % 2 = 1) then
    quotient + 1
  else quotient

/-- A double-precision number in its interchange format. -/
structure Binary64 where
  bits : UInt64
deriving DecidableEq, Repr

namespace Binary64

/-- The magnitude word of infinity; finite magnitudes lie below, NaNs above. -/
def infinityMagnitude : Nat := 2047 * Nat.pow 2 52

def ofMagnitude (negative : Bool) (magnitude : Nat) : Binary64 :=
  ⟨UInt64.ofNat ((if negative then Nat.pow 2 63 else 0) + magnitude % Nat.pow 2 63)⟩

def zero : Binary64 := ⟨0⟩

instance : Inhabited Binary64 := ⟨zero⟩

/-- The one NaN that is ever written. -/
def nan : Binary64 := ⟨0x7ff8000000000000⟩

def infinity (negative : Bool) : Binary64 :=
  ofMagnitude negative infinityMagnitude

def isNegative (number : Binary64) : Bool :=
  Nat.pow 2 63 ≤ number.bits.toNat

/-- The word without its sign bit. -/
def magnitude (number : Binary64) : Nat :=
  number.bits.toNat % Nat.pow 2 63

def isNaN (number : Binary64) : Bool :=
  infinityMagnitude < number.magnitude

def isInfinite (number : Binary64) : Bool :=
  number.magnitude = infinityMagnitude

def isFinite (number : Binary64) : Bool :=
  number.magnitude < infinityMagnitude

/-- Whether the number is one of the two zeros. -/
def isZero (number : Binary64) : Bool :=
  number.magnitude = 0

/-- Whether the number is below zero; neither a zero nor a NaN is. -/
def isBelowZero (number : Binary64) : Bool :=
  number.isNegative && !number.isZero && !number.isNaN

def negated (number : Binary64) : Binary64 :=
  ofMagnitude (!number.isNegative) number.magnitude

def exponentField (number : Binary64) : Nat :=
  number.magnitude / Nat.pow 2 52

/-- The significand of a finite number, with the leading bit that normal
numbers leave out. -/
def significand (number : Binary64) : Nat :=
  let fraction := number.magnitude % Nat.pow 2 52
  if number.exponentField = 0 then fraction else Nat.pow 2 52 + fraction

/-- The gap between a finite number and the next larger one is `2 ^ power`
units of `2 ^ -1074`. -/
def power (number : Binary64) : Nat :=
  number.exponentField - 1

/-- The magnitude of a finite number in units of `2 ^ -1074`. -/
def units (number : Binary64) : Nat :=
  number.significand * Nat.pow 2 number.power

def unitsInOne : Nat := Nat.pow 2 1074

/-- The magnitude nearest to a quotient, ties to the even word; infinity where
the quotient is too large. -/
def nearest (numerator denominator : Nat) : Nat :=
  let scaled := numerator * unitsInOne
  let shift := (scaled / denominator).log2 - 52
  min (shift * Nat.pow 2 52 + roundDiv scaled (denominator * Nat.pow 2 shift)) infinityMagnitude

def ofRatio (negative : Bool) (numerator denominator : Nat) : Binary64 :=
  ofMagnitude negative (nearest numerator denominator)

def ofNat (value : Nat) : Binary64 :=
  ofRatio false value 1

/-- The number nearest to an integer; zero is positive. -/
def ofInt : Int → Binary64
  | .ofNat value => ofNat value
  | .negSucc value => ofRatio true (value + 1) 1

/-- The integer that a finite number is, if it is whole. -/
def toInt? (number : Binary64) : Option Int :=
  if number.isFinite && number.units % unitsInOne = 0 then
    let whole := number.units / unitsInOne
    some (if number.isNegative then -(whole : Int) else whole)
  else none

/-- Numeric equality: a NaN equals nothing, the two zeros equal each other. -/
def equals (left right : Binary64) : Bool :=
  !left.isNaN && !right.isNaN && (left = right || (left.isZero && right.isZero))

/-- Place of the word in the total order: negative NaNs first, then numbers by
value with -0 before +0, positive NaNs last. -/
def rank (number : Binary64) : Int :=
  if number.isNegative then -(number.magnitude : Int) - 1 else number.magnitude

/-- The total order of words. -/
def totalCompare (left right : Binary64) : Ordering :=
  compare left.rank right.rank

end Binary64

end Depot.Decimal
