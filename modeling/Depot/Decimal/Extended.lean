import Depot.Decimal.Binary64

/-!
Contract: positive numbers of extended precision.

A number is a significand of 64 bits at most and a power of two. What does not
fit is rounded to the nearest number, ties to the even significand, and the power
of two has no bounds. Scaling by a power of ten rounds twice: the power is rounded
before the product is.

Owns: rounding to 64 bits, products, powers of ten and the way to and from
doubles.
Does not own: decimal text (`Depot.Decimal.Column`).
-/

namespace Depot.Decimal

/-- The number `significand * 2 ^ exponent`. -/
structure Extended where
  significand : Nat
  exponent : Int
deriving DecidableEq, Repr

namespace Extended

/-- The bits of a significand. -/
def precision : Nat := 64

/-- The number nearest to `significand * 2 ^ exponent`. -/
def rounded (significand : Nat) (exponent : Int) : Extended :=
  let surplus := significand.log2 + 1 - precision
  ⟨roundDiv significand (Nat.pow 2 surplus), exponent + surplus⟩

/-- The number nearest to a positive quotient. The quotient is computed with more
bits than a significand has, and its last bit tells whether anything is left. -/
def ofRatio (numerator denominator : Nat) : Extended :=
  let shift := denominator.log2 + precision + 2
  let scaled := numerator * Nat.pow 2 shift
  let remains := if scaled % denominator = 0 then 0 else 1
  rounded (2 * (scaled / denominator) + remains) (-(shift + 1))

def tenTo : Int → Extended
  | .ofNat power => ofRatio (Nat.pow 10 power) 1
  | .negSucc power => ofRatio 1 (Nat.pow 10 (power + 1))

def product (left right : Extended) : Extended :=
  rounded (left.significand * right.significand) (left.exponent + right.exponent)

def isBelow (left right : Extended) : Bool :=
  let least := min left.exponent right.exponent
  left.significand * Nat.pow 2 (left.exponent - least).toNat <
    right.significand * Nat.pow 2 (right.exponent - least).toNat

def floor (number : Extended) : Nat :=
  match number.exponent with
  | .ofNat power => number.significand * Nat.pow 2 power
  | .negSucc power => number.significand / Nat.pow 2 (power + 1)

/-- The magnitude of a finite double, which fits as it is. -/
def ofBinary64 (number : Binary64) : Extended :=
  ⟨number.significand, number.power - 1074⟩

def greatestDouble : Extended :=
  ofBinary64 (.ofMagnitude false (Binary64.infinityMagnitude - 1))

/-- The double with a sign and the magnitude of the number. A number above the
greatest finite double is infinite, however little it is above. -/
def toBinary64 (negative : Bool) (number : Extended) : Binary64 :=
  if greatestDouble.isBelow number then .infinity negative
  else
    match number.exponent with
    | .ofNat power => .ofRatio negative (number.significand * Nat.pow 2 power) 1
    | .negSucc power => .ofRatio negative number.significand (Nat.pow 2 (power + 1))

end Extended

end Depot.Decimal
