import Depot.Decimal.Shortest
import Depot.Text.Character

/-!
Contract: how decimal digits are laid out as text.

Three layouts are built on the fewest digits or on rounding at a place:
positional text without an exponent, the notation of JSON documents with an
exponent outside the range from 1e-5 to 1e16, and a fixed number of places.

Owns: the position of the point, exponents, and the texts of infinity and NaN.
Does not own: the choice of digits (`Depot.Decimal.Shortest`) and the texts of
columns (`Depot.Decimal.Column`).
-/

namespace Depot.Decimal

open Depot.Text

namespace Scientific

/-- The power of ten of the leading digit. -/
def leading (number : Scientific) : Int :=
  (natText number.digits).length + number.exponent - 1

/-- Digits before and after the point, without an exponent. The second part is
empty for a whole number. -/
def positional (number : Scientific) : List Char × List Char :=
  let digits := natText number.digits
  match number.exponent with
  | .ofNat zeros => (digits ++ List.replicate zeros '0', [])
  | .negSucc places =>
      let places := places + 1
      if places < digits.length then
        (digits.take (digits.length - places), digits.drop (digits.length - places))
      else
        (['0'], List.replicate (places - digits.length) '0' ++ digits)

/-- The digits with a point after the first one; the second part is empty for a
single digit. -/
def normalized (number : Scientific) : List Char × List Char :=
  let digits := natText number.digits
  (digits.take 1, digits.drop 1)

end Scientific

/-- The sign of a number that carries one, zero included. -/
def signText (number : Binary64) : List Char :=
  if number.isNegative then ['-'] else []

/-- The two texts that are not digits. -/
def specialText? (number : Binary64) : Option (List Char) :=
  if number.isNaN then some "NaN".toList
  else if number.isInfinite then some (signText number ++ "inf".toList)
  else none

/-- The fewest digits that read back, never with an exponent, whole numbers
without a point. -/
def plainText (number : Binary64) : List Char :=
  match specialText? number with
  | some text => text
  | none =>
      let (whole, fraction) := number.shortest.positional
      signText number ++ whole ++ (if fraction.isEmpty then [] else '.' :: fraction)

/-- The exact value rounded to a number of places after the point. -/
def fixedText (places : Nat) (number : Binary64) : List Char :=
  match specialText? number with
  | some text => text
  | none =>
      let scaled := roundDiv (number.units * Nat.pow 10 places) Binary64.unitsInOne
      let whole := natText (scaled / Nat.pow 10 places)
      let fraction := paddedText places (scaled % Nat.pow 10 places)
      signText number ++ whole ++ (if places = 0 then [] else '.' :: fraction)

end Depot.Decimal
