import Depot.Text.Character

/-!
Contract: days of the proleptic Gregorian calendar.

A `Date` is a day that exists, with a year between -262143 and 262142. Years
are numbered with a year zero. Dates are ordered by year, month and day, and
written as year, month and day with hyphens; a year outside 0 to 9999 is
written with its sign.

Owns: month lengths, the day before and after, order and text.
Does not own: times of day (`Depot.Calendar.Instant`), reading
(`Depot.Calendar.Pattern`).
-/

namespace Depot.Calendar

open Depot.Text

def isLeapYear (year : Int) : Bool :=
  year % 4 = 0 && (year % 100 != 0 || year % 400 = 0)

/-- The number of days of a month of a year; none for a month that is not
between 1 and 12. -/
def daysInMonth (year : Int) (month : Nat) : Nat :=
  if month = 2 then (if isLeapYear year then 29 else 28)
  else if month = 4 ∨ month = 6 ∨ month = 9 ∨ month = 11 then 30
  else if 1 ≤ month ∧ month ≤ 12 then 31
  else 0

def firstYear : Int := -262143

def lastYear : Int := 262142

/-- Whether the three numbers name a day of the calendar. -/
def IsDay (year : Int) (month day : Nat) : Prop :=
  firstYear ≤ year ∧ year ≤ lastYear ∧ 1 ≤ day ∧ day ≤ daysInMonth year month

instance (year : Int) (month day : Nat) : Decidable (IsDay year month day) := by
  unfold IsDay
  infer_instance

/-- A day of the calendar. -/
structure Date where
  year : Int
  month : Nat
  day : Nat
  isDay : IsDay year month day
deriving DecidableEq

namespace Date

def ofParts? (year : Int) (month day : Nat) : Option Date :=
  if isDay : IsDay year month day then some ⟨year, month, day, isDay⟩ else none

def epoch : Date := ⟨1970, 1, 1, by decide⟩

instance : Inhabited Date := ⟨epoch⟩

/-- The day after, if the calendar reaches it. -/
def next? (date : Date) : Option Date :=
  (ofParts? date.year date.month (date.day + 1)).or <|
    (ofParts? date.year (date.month + 1) 1).or (ofParts? (date.year + 1) 1 1)

/-- The day before, if the calendar reaches it. -/
def previous? (date : Date) : Option Date :=
  if 1 < date.day then ofParts? date.year date.month (date.day - 1)
  else if 1 < date.month then
    ofParts? date.year (date.month - 1) (daysInMonth date.year (date.month - 1))
  else ofParts? (date.year - 1) 12 31

def order (left right : Date) : Ordering :=
  (compare left.year right.year).then <|
    (compare left.month right.month).then (compare left.day right.day)

/-- A year: four digits from 0 to 9999, a sign and at least four digits
elsewhere. -/
def yearText (year : Int) : List Char :=
  match year with
  | .ofNat value =>
      if value ≤ 9999 then paddedText 4 value else '+' :: paddedText 4 value
  | .negSucc value => '-' :: paddedText 4 (value + 1)

/-- Year, month and day with hyphens. -/
def text (date : Date) : List Char :=
  yearText date.year ++ '-' :: paddedText 2 date.month ++ '-' :: paddedText 2 date.day

end Date

end Depot.Calendar
