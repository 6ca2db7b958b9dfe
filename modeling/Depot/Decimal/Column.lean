import Depot.Decimal.Extended
import Depot.Decimal.Notation

/-!
Contract: how numbers go into and out of the texts of columns.

Digits are held in 64 bits and powers of ten are multiplied in numbers of
extended precision, step by step: hundreds of them, tens, single ones. Neither
way is always the nearest one, since every step may round.

Going in, a text gives as many digits as 64 bits have room for. Coming out, a
number has fifteen significant digits at most, a half is rounded up, and only the
digit after the fifteenth counts.

Owns: the steps of both ways and the layout of numbers in text columns.
Does not own: which texts are numbers (`Depot.Database.Cell`).
-/

namespace Depot.Decimal

open Depot.Text

namespace Scientific

/-- Below this bound there is room for one more digit in 64 bits. -/
def digitRoom : Nat := (Nat.pow 2 64 - 10) / 10

/-- The number after one more digit before the point. Without room the digit
counts as a zero. -/
def withWholeDigit (number : Scientific) (digit : Char) : Scientific :=
  if number.digits < digitRoom then
    ⟨number.digits * 10 + digitValue digit, number.exponent⟩
  else ⟨number.digits, number.exponent + 1⟩

/-- The number after one more digit behind the point. Without room the digit is
left out. -/
def withFractionDigit (number : Scientific) (digit : Char) : Scientific :=
  if number.digits < digitRoom then
    ⟨number.digits * 10 + digitValue digit, number.exponent - 1⟩
  else number

def ofDigits (whole fraction : List Char) : Scientific :=
  fraction.foldl withFractionDigit (whole.foldl withWholeDigit ⟨0, 0⟩)

/-- Multiply by ten up to `power` times while 64 bits have room, and the power that
is left. -/
def lengthened : (power digits : Nat) → Nat × Nat
  | 0, digits => (digits, 0)
  | power + 1, digits =>
      if digits < (Nat.pow 2 64 - 1) / 10 then lengthened power (digits * 10)
      else (digits, power + 1)

/-- Divide by ten up to `power` times while that is exact, and the power that is
left. -/
def shortened : (power digits : Nat) → Nat × Nat
  | 0, digits => (digits, 0)
  | power + 1, digits =>
      if digits % 10 = 0 then shortened power (digits / 10) else (digits, power + 1)

/-- The same number with an exponent as near to zero as 64 bits allow. -/
def nearerZero (number : Scientific) : Scientific :=
  match number.exponent with
  | .ofNat power =>
      let (digits, left) := lengthened power number.digits
      ⟨digits, left⟩
  | .negSucc power =>
      let (digits, left) := shortened (power + 1) number.digits
      ⟨digits, -left⟩

/-- The double that a column makes of the number. -/
def columnDouble (negative : Bool) (number : Scientific) : Binary64 :=
  if number.digits = 0 then .ofMagnitude negative 0
  else
    let number := number.nearerZero
    let count := number.exponent.natAbs
    let scale := fun (power : Int) (times : Nat) (start : Extended) =>
      let factor := Extended.tenTo (number.exponent.sign * power)
      Nat.repeat (Extended.product factor) times start
    if count = 0 then .ofRatio negative number.digits 1
    else
      let hundreds := scale 100 (count / 100) (.rounded number.digits 0)
      let tens := scale 10 (count / 10 % 10) hundreds
      (scale 1 (count % 10) tens).toBinary64 negative

/-- The number with its digits cut to a count of them, rounded up where the next
digit is five or more. -/
def cutTo (count : Nat) (number : Scientific) : Scientific :=
  let surplus := (natText number.digits).length - count
  if surplus = 0 then number
  else
    ⟨(number.digits + 5 * Nat.pow 10 (surplus - 1)) / Nat.pow 10 surplus,
      number.exponent + surplus⟩

end Scientific

/-- A number on its way to a whole one, and the power of ten that was taken out
of it so far. -/
structure Scaling where
  number : Extended
  exponent : Int
deriving DecidableEq, Repr

namespace Scaling

/-- Take a power of ten out while a condition holds, at most `fuel` times. -/
def takeOut (power : Int) (goesOn : Extended → Bool) : (fuel : Nat) → Scaling → Scaling
  | 0, scaling => scaling
  | fuel + 1, scaling =>
      if goesOn scaling.number then
        takeOut power goesOn fuel
          ⟨scaling.number.product (.tenTo (-power)), scaling.exponent + power⟩
      else scaling

/-- The number with eighteen or nineteen digits before its point. No double takes
more than forty steps. -/
def settled (number : Extended) : Scaling :=
  let fuel := 40
  let reaches := fun (power : Int) (number : Extended) => !number.isBelow (.tenTo power)
  let isBelow := fun (power : Int) (number : Extended) => number.isBelow (.tenTo power)
  if reaches 19 number then
    takeOut 1 (reaches 19) fuel <| takeOut 10 (reaches 29) fuel <|
      takeOut 100 (reaches 119) fuel ⟨number, 0⟩
  else
    takeOut (-1) (isBelow 17) fuel <| takeOut (-10) (isBelow 7) fuel <|
      takeOut (-100) (isBelow (-97)) fuel ⟨number, 0⟩

end Scaling

/-- The digits of a positive finite number in a text column. -/
def columnDigits (number : Binary64) : Scientific :=
  let scaling := Scaling.settled (.ofBinary64 number)
  ((Scientific.mk scaling.number.floor scaling.exponent).cutTo 15).trimZeros 20

/-- The exponent of a number in a text column: a sign and at least two digits. -/
def columnExponent : Int → List Char
  | .ofNat value => 'e' :: '+' :: paddedText 2 value
  | .negSucc value => 'e' :: '-' :: paddedText 2 (value + 1)

/-- Fifteen significant digits at most, trailing zeros dropped, always with a
point; an exponent outside the range from 1e-4 to 1e15. -/
def columnText (number : Binary64) : List Char :=
  if number.isNaN then []
  else if number.isInfinite then signText number ++ "Inf".toList
  else if number.isZero then "0.0".toList
  else
    let digits := columnDigits number
    let withPoint := fun (parts : List Char × List Char) =>
      parts.1 ++ '.' :: (if parts.2.isEmpty then ['0'] else parts.2)
    signText number ++
      if digits.leading < -4 ∨ 14 < digits.leading then
        withPoint digits.normalized ++ columnExponent digits.leading
      else withPoint digits.positional

end Depot.Decimal
