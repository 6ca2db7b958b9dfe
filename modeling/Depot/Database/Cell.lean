import Depot.Decimal.Column
import Depot.Text.Split

/-!
Contract: the values that columns hold.

A cell is empty, an integer of 64 bits, a double or a text. What a column makes
of a value depends on its affinity: a text column writes numbers out; number
columns read texts that are numbers; an integer column takes doubles that are
whole; a real column makes every number a double. A text that is no number stays
a text in any column. NaN is kept as empty and minus zero as zero.

Owns: cells, affinities, the order of cells and the readings of numbers.
Does not own: rows (`Depot.Database.Rows`).
-/

namespace Depot.Database

open Decimal Text

/-- The value in one column of one row. -/
inductive Cell where
  | empty
  | integer (value : Int)
  | real (value : Binary64)
  | text (value : String)
deriving DecidableEq, Repr

/-- What a column prefers to hold. -/
inductive Affinity where
  | text
  | integer
  | real
deriving DecidableEq, Repr

namespace Cell

def ofDouble (value : Binary64) : Cell :=
  if value.isNaN then .empty else .real value

def ofBool (value : Bool) : Cell :=
  .integer (if value then 1 else 0)

def ofText? (value : Option String) : Cell :=
  value.elim .empty .text

def isInt64 (value : Int) : Bool :=
  -(Int.pow 2 63) ≤ value && value < Int.pow 2 63

/-- The integer that a double is, if it is whole and strictly inside the range of
64 bits. -/
def wholeOf? (value : Binary64) : Option Int :=
  value.toInt?.filter fun whole => -(Int.pow 2 63) < whole && whole < Int.pow 2 63 - 1

def isSpace (character : Char) : Bool :=
  character = ' ' || ('\t' ≤ character && character ≤ '\r')

/-- The value of the digits of an exponent. From ten thousand on, a further digit
makes it ten thousand. -/
def exponentValue (digits : List Char) : Nat :=
  digits.foldl
    (fun value digit => if value < 10000 then value * 10 + digitValue digit else 10000) 0

/-- An exponent at the beginning of a text. Without digits there is none. -/
def takeExponent (text : List Char) : Option Int × List Char :=
  let ofDigits := fun (sign : Int) (rest : List Char) =>
    let digits := rest.takeWhile isDigit
    if digits.isEmpty then (none, text)
    else (some (sign * (exponentValue digits : Int)), rest.dropWhile isDigit)
  match text with
  | mark :: rest =>
      if mark = 'e' || mark = 'E' then
        match rest with
        | '+' :: digits => ofDigits 1 digits
        | '-' :: digits => ofDigits (-1) digits
        | digits => ofDigits 1 digits
      else (none, text)
  | [] => (none, text)

/-- The number without a sign at the beginning of a text, and the text after it. -/
def takeUnsigned? (negative : Bool) (text : List Char) : Option (Cell × List Char) :=
  let whole := text.takeWhile isDigit
  let afterWhole := text.dropWhile isDigit
  let fraction? : Option (List Char) := match afterWhole with
    | '.' :: rest => some (rest.takeWhile isDigit)
    | _ => none
  let afterFraction := match afterWhole with
    | '.' :: rest => rest.dropWhile isDigit
    | _ => afterWhole
  let fraction := fraction?.getD []
  if whole.isEmpty && fraction.isEmpty then none
  else
    let (exponent?, rest) := takeExponent afterFraction
    let digits := digitsValue whole
    let value : Int := if negative then -(digits : Int) else digits
    if fraction?.isNone && exponent?.isNone && isInt64 value then some (.integer value, rest)
    else
      let given := Scientific.ofDigits whole fraction
      let scaled := Scientific.mk given.digits (given.exponent + exponent?.getD 0)
      some (.real (scaled.columnDouble negative), rest)

/-- The number at the beginning of a text, after spaces, and the text after it
and its spaces. -/
def takeNumber? (text : List Char) : Option (Cell × List Char) :=
  let taken := match text.dropWhile isSpace with
    | '-' :: rest => takeUnsigned? true rest
    | '+' :: rest => takeUnsigned? false rest
    | rest => takeUnsigned? false rest
  taken.map fun number => (number.1, number.2.dropWhile isSpace)

def numberOf? (text : String) : Option Cell :=
  (takeNumber? text.toList).bind fun taken =>
    if taken.2.isEmpty then some taken.1 else none

/-- The number that a text counts as in sums: the one it begins with, or zero. -/
def numberWithin (text : String) : Cell :=
  ((takeNumber? text.toList).map Prod.fst).getD (.integer 0)

/-- A number as an integer column keeps it. -/
def wholeNumber : Cell → Cell
  | .real value => (wholeOf? value).elim (.real value) .integer
  | cell => cell

/-- A number as a real column keeps it. -/
def realNumber : Cell → Cell
  | .integer value => .real (.ofInt value)
  | .real value => .real (if value.isZero then .zero else value)
  | cell => cell

def stored (affinity : Affinity) : Cell → Cell
  | .empty => .empty
  | .integer value =>
      match affinity with
      | .text => .text (String.ofList (intText value))
      | .integer => .integer value
      | .real => realNumber (.integer value)
  | .real value =>
      if value.isNaN then .empty
      else
        match affinity with
        | .text => .text (String.ofList (columnText value))
        | .integer => wholeNumber (.real value)
        | .real => realNumber (.real value)
  | .text value =>
      match affinity, numberOf? value with
      | .text, _ | _, none => .text value
      | .integer, some number => wholeNumber number
      | .real, some number => realNumber number

def isEmpty (cell : Cell) : Bool := cell = .empty

/-- A double as a signed number of units of `2 ^ -1074`; infinities lie outside
all finite numbers. -/
def signedUnits (value : Binary64) : Int :=
  if value.isNegative then -(value.units : Int) else value.units

/-- The order of cells: empty ones, numbers by value, texts by characters. -/
def order (left right : Cell) : Ordering :=
  match left, right with
  | .empty, .empty => .eq
  | .empty, _ => .lt
  | _, .empty => .gt
  | .integer left, .integer right => compare left right
  | .integer left, .real right => compare (left * Binary64.unitsInOne) (signedUnits right)
  | .real left, .integer right => compare (signedUnits left) (right * Binary64.unitsInOne)
  | .real left, .real right => compare (signedUnits left) (signedUnits right)
  | .text left, .text right => compare left right
  | .text _, _ => .gt
  | _, .text _ => .lt

/-- Whether two cells are the same value; an empty one is no value. -/
def agrees (left right : Cell) : Bool :=
  !left.isEmpty && left.order right = .eq

/-- The greatest of the cells that are not empty. -/
def greatest : List Cell → Cell
  | [] => .empty
  | cell :: cells =>
      let others := greatest cells
      if cell.order others = .gt then cell else others

def realSuccessor (value : Binary64) : Binary64 :=
  if value.isFinite then
    let sum := signedUnits value + Binary64.unitsInOne
    Binary64.ofRatio (sum < 0) sum.natAbs Binary64.unitsInOne
  else value

/-- One more than an integer; past the range of 64 bits it is a double. -/
def integerSuccessor (value : Int) : Cell :=
  if isInt64 (value + 1) then .integer (value + 1)
  else .real (realSuccessor (.ofInt value))

def numberSuccessor : Cell → Cell
  | .integer value => integerSuccessor value
  | .real value => .real (realSuccessor value)
  | .empty | .text _ => .integer 1

/-- One more than a cell, where an empty one counts as zero and a text as the
number that it begins with. -/
def successor : Cell → Cell
  | .text value => numberSuccessor (numberWithin value)
  | cell => numberSuccessor cell

end Cell

end Depot.Database
