import Depot.Decimal.Notation
import Depot.Decimal.Reader

/-!
Contract: numbers as JSON documents write them.

A `Numeral` is the number's text taken apart: sign, whole part, digits after
the point, exponent. `value` says what it stands for: an integer where there is
neither point nor exponent and 64 bits suffice, a double otherwise. A numeral
too large for a double has no value. `ofBinary64` is the numeral that a finite
double is written as: its fewest digits, at least one of them after the point,
with an exponent outside the range from 1e-5 to 1e16.

Owns: the text, the value and the choice of layout.
Does not own: the places where numbers may stand (`Depot.Json.Reader`).
-/

namespace Depot.Json

open Depot.Decimal
open Depot.Text

/-- A number of a document, taken apart. -/
structure Numeral where
  negative : Bool
  whole : Nat
  fraction : Option (List Char)
  exponent : Option Int
deriving DecidableEq, Repr

namespace Numeral

def ofInt : Int → Numeral
  | .ofNat value => ⟨false, value, none, none⟩
  | .negSucc value => ⟨true, value + 1, none, none⟩

def ofBinary64 (number : Binary64) : Numeral :=
  let digits := number.shortest
  if number.isZero then ⟨number.isNegative, 0, some ['0'], none⟩
  else if -5 ≤ digits.leading ∧ digits.leading < 16 then
    let (whole, fraction) := digits.positional
    ⟨number.isNegative, digitsValue whole,
      some (if fraction.isEmpty then ['0'] else fraction), none⟩
  else
    let (whole, fraction) := digits.normalized
    ⟨number.isNegative, digitsValue whole,
      if fraction.isEmpty then none else some fraction, some digits.leading⟩

/-- The exponent part: a mark, a sign and digits. -/
def exponentText : Int → List Char
  | .ofNat value => 'e' :: '+' :: natText value
  | .negSucc value => 'e' :: '-' :: natText (value + 1)

def text (numeral : Numeral) : List Char :=
  (if numeral.negative then ['-'] else [])
    ++ natText numeral.whole
    ++ (numeral.fraction.elim [] fun digits => '.' :: digits)
    ++ numeral.exponent.elim [] exponentText

/-- What a numeral stands for. -/
inductive Value where
  | integer (value : Int)
  | double (value : Binary64)
  | tooLarge
deriving DecidableEq, Repr

/-- Digits taken into a 64-bit significand until the next one would not fit,
and the digits that are left. -/
def absorb (significand : Nat) : List Char → Nat × List Char
  | [] => (significand, [])
  | digit :: rest =>
      let next := significand * 10 + digitValue digit
      if next < Nat.pow 2 64 then absorb next rest else (significand, digit :: rest)

/-- The double that a numeral stands for. Whole digits past the 64-bit
significand count as zeros, digits after the point past it are dropped. -/
def double? (numeral : Numeral) : Option Binary64 :=
  let (significand, unread) := absorb 0 (natText numeral.whole)
  let fraction := numeral.fraction.getD []
  let (significand, dropped) := absorb significand fraction
  let places : Int := (fraction.length - dropped.length : Nat)
  stepwiseDecimal? numeral.negative significand
    ((unread.length : Int) - places + numeral.exponent.getD 0)

/-- What the numeral stands for. A minus sign before a zero, or before a whole
number below -2^63, makes it a double. -/
def value (numeral : Numeral) : Value :=
  let asDouble : Value := numeral.double?.elim .tooLarge .double
  if numeral.fraction.isSome || numeral.exponent.isSome then asDouble
  else if numeral.negative then
    if 0 < numeral.whole ∧ numeral.whole ≤ Nat.pow 2 63 then .integer (-(numeral.whole : Int))
    else asDouble
  else if numeral.whole < Nat.pow 2 64 then .integer numeral.whole
  else asDouble

end Numeral

end Depot.Json
