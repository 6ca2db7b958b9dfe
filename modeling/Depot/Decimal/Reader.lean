import Depot.Decimal.Binary64
import Depot.Text.Character

/-!
Contract: numbers read from decimal text.

A decimal number is a sign, a run of digits and a power of ten. `nearestDecimal`
is the number nearest to it. `stepwiseDecimal` is the cheaper reading that JSON
documents get: the digits become one double, which is then multiplied or divided
by a power of ten, so that two or three roundings may add up.

Owns: both readings and the grammar of free-standing numbers.
Does not own: the grammar of numbers inside JSON (`Depot.Json`).
-/

namespace Depot.Decimal

open Depot.Text

/-- The number nearest to `digits * 10 ^ exponent`. Exponents far outside the
range of finite numbers are settled without computing the power. -/
def nearestDecimal (negative : Bool) (digits : Nat) (exponent : Int) : Binary64 :=
  let length : Int := (natText digits).length + exponent
  if digits = 0 || length < -330 then Binary64.ofMagnitude negative 0
  else if 320 < length then Binary64.infinity negative
  else
    match exponent with
    | .ofNat power => Binary64.ofRatio negative (digits * Nat.pow 10 power) 1
    | .negSucc power => Binary64.ofRatio negative digits (Nat.pow 10 (power + 1))

/-- Ten to a power, rounded to a double; powers up to 308 are finite. -/
def roundedPower (power : Nat) : Binary64 :=
  Binary64.ofNat (Nat.pow 10 power)

/-- The magnitude of a finite product, rounded. -/
def product (left right : Binary64) : Nat :=
  Binary64.nearest (left.units * right.units)
    (Binary64.unitsInOne * Binary64.unitsInOne)

/-- The magnitude of a finite quotient, rounded. -/
def quotient (left right : Binary64) : Nat :=
  Binary64.nearest left.units right.units

/-- Division by 1e308 as long as the exponent is below -308, then by the power
that is left. -/
def dividedDown : (fuel : Nat) → Binary64 → (exponent : Nat) → Binary64
  | 0, number, _ => number
  | fuel + 1, number, exponent =>
      if exponent ≤ 308 then
        Binary64.ofMagnitude false (quotient number (roundedPower exponent))
      else if number.isZero then number
      else
        dividedDown fuel
          (Binary64.ofMagnitude false (quotient number (roundedPower 308)))
          (exponent - 308)

/-- The digits as one double, scaled by a power of ten in double arithmetic.
There is no number where the result would be infinite. -/
def stepwiseDecimal? (negative : Bool) (digits : Nat) (exponent : Int) : Option Binary64 :=
  let number := Binary64.ofNat digits
  let signed := fun (result : Binary64) => Binary64.ofMagnitude negative result.magnitude
  match exponent with
  | .ofNat power =>
      if number.isZero then some (signed number)
      else if 308 < power then none
      else
        let scaled := product number (roundedPower power)
        if scaled < Binary64.infinityMagnitude then
          some (signed (Binary64.ofMagnitude false scaled))
        else none
  | .negSucc power => some (signed (dividedDown 4 number (power + 1)))

/-- Digits around an optional point, as one run of digits and the number of
them after the point. At least one digit must stand on either side. -/
def readDigits? (text : List Char) : Option (List Char × Nat × List Char) :=
  let whole := text.takeWhile isDigit
  let rest := text.dropWhile isDigit
  match rest with
  | '.' :: afterPoint =>
      let fraction := afterPoint.takeWhile isDigit
      if whole.isEmpty && fraction.isEmpty then none
      else some (whole ++ fraction, fraction.length, afterPoint.dropWhile isDigit)
  | _ => if whole.isEmpty then none else some (whole, 0, rest)

/-- An exponent that makes up the whole text: nothing, or a mark, an optional
sign and digits. -/
def readExponent? (text : List Char) : Option Int :=
  let ofDigits := fun (digits : List Char) (sign : Int) =>
    if digits.isEmpty || !digits.all isDigit then none
    else some (sign * (digitsValue digits : Int))
  match text with
  | [] => some 0
  | mark :: rest =>
      if mark = 'e' || mark = 'E' then
        match rest with
        | '+' :: digits => ofDigits digits 1
        | '-' :: digits => ofDigits digits (-1)
        | digits => ofDigits digits 1
      else none

/-- An unsigned number that makes up the whole text. -/
def readUnsigned? (negative : Bool) (text : List Char) : Option Binary64 :=
  match readDigits? text with
  | none => none
  | some (digits, places, rest) =>
      (readExponent? rest).map fun exponent =>
        nearestDecimal negative (digitsValue digits) (exponent - places)

/-- The words for infinity and NaN, in any ASCII case. -/
def readWord? (negative : Bool) (text : List Char) : Option Binary64 :=
  let word := String.ofList (lower text)
  if word = "inf" || word = "infinity" then some (Binary64.infinity negative)
  else if word = "nan" then some Binary64.nan
  else none

/-- A free-standing number: an optional sign, then digits with an optional
point and exponent, or a word for infinity or NaN. -/
def readNumber? (text : List Char) : Option Binary64 :=
  let read := fun (negative : Bool) (rest : List Char) =>
    (readUnsigned? negative rest).or (readWord? negative rest)
  match text with
  | '-' :: rest => read true rest
  | '+' :: rest => read false rest
  | rest => read false rest

end Depot.Decimal
