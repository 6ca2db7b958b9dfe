import Depot.Decimal.Binary64

/-!
Contract: the fewest decimal digits that read back to a number.

For each count of digits from one to seventeen the two neighbours of the value
on that decimal grid are tested against the interval of reals that round to the
number. The first grid with a hit wins; of two hits the nearer one is taken,
and an exact tie goes to the even digit.

Owns: the choice of digits.
Does not own: how digits are laid out (`Depot.Decimal.Notation`).
-/

namespace Depot.Decimal

/-- A decimal number `digits * 10 ^ exponent`. -/
structure Scientific where
  digits : Nat
  exponent : Int
deriving DecidableEq, Repr

namespace Scientific

/-- The same number without the zeros that its digits end in. At most `fuel`
zeros are taken off. -/
def trimZeros : (fuel : Nat) → Scientific → Scientific
  | 0, number => number
  | fuel + 1, number =>
      if number.digits ≠ 0 ∧ number.digits % 10 = 0 then
        trimZeros fuel ⟨number.digits / 10, number.exponent + 1⟩
      else number

end Scientific

namespace Binary64

/-- Whether `numerator / denominator` is below `10 ^ exponent`. -/
def belowPower (numerator denominator : Nat) (exponent : Int) : Bool :=
  match exponent with
  | .ofNat power => numerator < denominator * Nat.pow 10 power
  | .negSucc power => numerator * Nat.pow 10 (power + 1) < denominator

/-- The least exponent of ten above a positive quotient, found from its binary
length, which is right to within two. -/
def decimalLength (numerator denominator : Nat) : Int :=
  let binaryLength : Int := (numerator.log2 : Int) - denominator.log2
  let guess := (binaryLength * 30103).fdiv 100000
  if belowPower numerator denominator (guess - 1) then guess - 1
  else if belowPower numerator denominator guess then guess
  else if belowPower numerator denominator (guess + 1) then guess + 1
  else guess + 2

/-- The reals that round to a number, in quarters of the unit: the value, the
two ends, and whether the ends belong. -/
structure Interval where
  value : Nat
  low : Nat
  high : Nat
  closed : Bool

/-- The interval of a finite number. Below a power of two the gap is half as
wide as above it. -/
def interval (number : Binary64) : Interval :=
  let gap := Nat.pow 2 number.power
  let below :=
    if number.significand = Nat.pow 2 52 ∧ 0 < number.power then gap else 2 * gap
  { value := 4 * number.units
    low := 4 * number.units - below
    high := 4 * number.units + 2 * gap
    closed := number.significand % 2 = 0 }

def Interval.contains (range : Interval) (numerator denominator : Nat) : Bool :=
  if range.closed then
    range.low * denominator ≤ numerator && numerator ≤ range.high * denominator
  else
    range.low * denominator < numerator && numerator < range.high * denominator

/-- The point of the grid `10 ^ exponent` in the interval that is nearest to the
value, if one of the value's two neighbours lies in it. -/
def Interval.pointOnGrid? (range : Interval) (exponent : Int) : Option Nat :=
  let quartersInOne := 4 * unitsInOne
  let step := match exponent with
    | .ofNat power => quartersInOne * Nat.pow 10 power
    | .negSucc _ => quartersInOne
  let scale := match exponent with
    | .ofNat _ => 1
    | .negSucc power => Nat.pow 10 (power + 1)
  let value := range.value * scale
  let lower := value / step
  let upper := lower + 1
  let lowerHit := range.contains (lower * step) scale
  let upperHit := range.contains (upper * step) scale
  let fromLower := value - lower * step
  let fromUpper := upper * step - value
  if lowerHit && upperHit then
    if fromLower < fromUpper then some lower
    else if fromUpper < fromLower then some upper
    else if lower % 2 = 0 then some lower else some upper
  else if lowerHit then some lower
  else if upperHit then some upper
  else none

/-- The fewest digits of a positive finite number, tried from `count` digits up
to seventeen. -/
def shortestFrom (range : Interval) (length : Int) : (fuel count : Nat) → Scientific
  | 0, count => ⟨(range.pointOnGrid? (length - count)).getD 0, length - count⟩
  | fuel + 1, count =>
      match range.pointOnGrid? (length - count) with
      | some digits => ⟨digits, length - count⟩
      | none => shortestFrom range length fuel (count + 1)

/-- The fewest digits that read back to the magnitude of a finite number; zero
for the two zeros. -/
def shortest (number : Binary64) : Scientific :=
  if number.isZero then ⟨0, 0⟩
  else
    let range := number.interval
    let length := decimalLength range.value (4 * unitsInOne)
    (shortestFrom range length 16 1).trimZeros 20

end Binary64

end Depot.Decimal
