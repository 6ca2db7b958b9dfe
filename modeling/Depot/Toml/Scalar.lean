import Depot.Calendar.Date
import Depot.Decimal.Reader
import Depot.Toml.Basic

/-!
Contract: numbers, dates and times in TOML documents.

Digits may be separated by single underscores. An integer has 64 bits; it may be
written in base 2, 8 or 16. A number with a point or an exponent is a double. A
date has four, two and two digits, a time two for each part and perhaps a
fraction, and both together perhaps an offset.

Owns: the values that begin with a sign or a digit, and the words for doubles.
Does not own: all other values (`Depot.Toml.Reader`).
-/

namespace Depot.Toml

open Text

/-- A value and what follows it. -/
abbrev Taken := Toml × List Char

/-- More digits, each perhaps after one underscore. -/
def moreDigits? (isDigit : Char → Bool) : List Char → Option (List Char × List Char)
  | [] => some ([], [])
  | '_' :: digit :: rest =>
      if isDigit digit then
        (moreDigits? isDigit rest).map fun found => (digit :: found.1, found.2)
      else none
  | character :: rest =>
      if isDigit character then
        (moreDigits? isDigit rest).map fun found => (character :: found.1, found.2)
      else if character = '_' then none
      else some ([], character :: rest)

/-- One digit and more. -/
def someDigits? (isDigit : Char → Bool) (text : List Char) : Option (List Char × List Char) :=
  match text with
  | digit :: rest =>
      if isDigit digit then
        (moreDigits? isDigit rest).map fun found => (digit :: found.1, found.2)
      else none
  | [] => none

/-- An integer of 64 bits. -/
def integer? (value : Int) : Option Toml :=
  if -(Int.pow 2 63) ≤ value ∧ value < Int.pow 2 63 then some (.integer value) else none

/-- An integer in a base up to 16. -/
def readBase? (base : Nat) (text : List Char) : Option Taken := do
  let isDigit := fun character => (hexValue? character).any (· < base)
  let (digits, rest) ← someDigits? isDigit text
  let value := (digits.filterMap hexValue?).foldl (fun value digit => value * base + digit) 0
  return (← integer? value, rest)

/-- The digits of a whole number in base ten, without leading zeros. -/
def wholeDigits? (text : List Char) : Option (List Char × List Char) :=
  match text with
  | '0' :: rest => some (['0'], rest)
  | _ => someDigits? isDigit text

/-- A sign, if there is one: whether it is a minus, and what follows it. -/
def takeSign (text : List Char) : Bool × List Char :=
  match text with
  | '+' :: rest => (false, rest)
  | '-' :: rest => (true, rest)
  | _ => (false, text)

/-- An exponent, if there is one. It fails where there is only its mark. -/
def readExponentPart? (text : List Char) : Option (Option Int × List Char) :=
  match text with
  | mark :: rest =>
      if mark = 'e' || mark = 'E' then do
        let (negative, rest) := takeSign rest
        let (digits, rest) ← someDigits? isDigit rest
        let value : Int := digitsValue digits
        return (some (if negative then -value else value), rest)
      else some (none, text)
  | [] => some (none, [])

/-- A fraction, if there is one. It fails where there is only its point. -/
def readFractionPart? (text : List Char) : Option (Option (List Char) × List Char) :=
  match text with
  | '.' :: rest => (someDigits? isDigit rest).map fun found => (some found.1, found.2)
  | _ => some (none, text)

/-- A double, unless it is too large. -/
def float? (value : Decimal.Binary64) : Option Toml :=
  if value = Decimal.Binary64.infinity false then none else some (.float value)

/-- A number in base ten. -/
def readDecimal? (text : List Char) : Option Taken := do
  let (negative, unsigned) := takeSign text
  let (digits, rest) ← wholeDigits? unsigned
  let (fraction?, rest) ← readFractionPart? rest
  let (exponent?, rest) ← readExponentPart? rest
  match fraction?, exponent? with
  | none, none =>
      let value : Int := digitsValue digits
      return (← integer? (if negative then -value else value), rest)
  | _, _ =>
      let fraction := fraction?.getD []
      let value := Decimal.nearestDecimal negative (digitsValue (digits ++ fraction))
        (exponent?.getD 0 - fraction.length)
      return (← float? value, rest)

/-- A word for a double. -/
def readFloatWord? (text : List Char) : Option Taken :=
  let (negative, unsigned) := takeSign text
  match unsigned with
  | 'i' :: 'n' :: 'f' :: rest => some (.float (.infinity negative), rest)
  | 'n' :: 'a' :: 'n' :: rest => some (.float .nan, rest)
  | _ => none

/-- A number of as many digits as are asked for. -/
def takeNumber? : (width : Nat) → List Char → Option (Nat × List Char)
  | 0, text => some (0, text)
  | width + 1, digit :: rest =>
      if isDigit digit then
        (takeNumber? width rest).map fun found =>
          (digitValue digit * Nat.pow 10 width + found.1, found.2)
      else none
  | _ + 1, [] => none

/-- A number of two digits, after a separator and not over a limit. -/
def takePart? (separator : Char) (limit : Nat) (text : List Char) : Option (Nat × List Char) :=
  match text with
  | character :: rest =>
      if character = separator then
        (takeNumber? 2 rest).filter fun found => found.1 ≤ limit
      else none
  | [] => none

/-- What follows a date at the beginning of a text. -/
def afterDate? (text : List Char) : Option (List Char) := do
  let (year, rest) ← takeNumber? 4 text
  let (month, rest) ← takePart? '-' 12 rest
  let (day, rest) ← takePart? '-' 31 rest
  if 1 ≤ day ∧ day ≤ Calendar.daysInMonth year month then return rest else none

/-- What follows a fraction of a second. -/
def afterFraction (text : List Char) : List Char :=
  match text with
  | '.' :: digit :: rest => if isDigit digit then rest.dropWhile isDigit else text
  | _ => text

/-- What follows a time at the beginning of a text. -/
def afterTime? (text : List Char) : Option (List Char) := do
  let (hour, rest) ← takeNumber? 2 text
  let (_, rest) ← takePart? ':' 59 rest
  let (_, rest) ← takePart? ':' 60 rest
  if hour ≤ 23 then return afterFraction rest else none

/-- What follows an offset, if there is one. It fails where an offset breaks off. -/
def afterOffset? (text : List Char) : Option (List Char) :=
  match text with
  | 'Z' :: rest | 'z' :: rest => some rest
  | sign :: rest =>
      if sign = '+' || sign = '-' then do
        let (hour, rest) ← takeNumber? 2 rest
        let (_, rest) ← takePart? ':' 59 rest
        if hour ≤ 23 then return rest else none
      else some text
  | [] => some []

/-- A date, a time, or both. -/
def readMoment? (text : List Char) : Option Taken :=
  match afterDate? text with
  | none => (afterTime? text).map fun rest => (.moment, rest)
  | some afterDate =>
      match afterDate with
      | separator :: rest =>
          if separator = 'T' || separator = 't' || separator = ' ' then
            match afterTime? rest with
            | some afterTime => (afterOffset? afterTime).map fun rest => (.moment, rest)
            | none => some (.moment, afterDate)
          else some (.moment, afterDate)
      | [] => some (.moment, [])

/-- Whether a text begins with digits that only a date or a time begins with. -/
def beginsMoment (text : List Char) : Bool :=
  match text.dropWhile isDigit with
  | '-' :: _ => (text.takeWhile isDigit).length = 4
  | ':' :: _ => (text.takeWhile isDigit).length = 2
  | _ => false

/-- A value that begins with a sign or a digit, or a word for a double. -/
def readNumber? (text : List Char) : Option Taken :=
  if beginsMoment text then readMoment? text
  else
    match text with
    | '0' :: 'x' :: rest => readBase? 16 rest
    | '0' :: 'o' :: rest => readBase? 8 rest
    | '0' :: 'b' :: rest => readBase? 2 rest
    | _ => (readFloatWord? text).or (readDecimal? text)

end Depot.Toml
