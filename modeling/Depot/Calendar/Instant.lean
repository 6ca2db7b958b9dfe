import Depot.Calendar.Date

/-!
Contract: moments in universal time.

An `Instant` is a day, a second of that day and a nanosecond. A leap second is
the last second of a minute with a nanosecond count from 10^9 on; it is written
as second 60. `ofLocal?` takes the zone's offset away from a local time.

Owns: offsets, and the two written forms, with `Z` and with `+00:00`.
Does not own: reading (`Depot.Calendar.Pattern`).
-/

namespace Depot.Calendar

open Depot.Text

def nanosInSecond : Nat := 1000000000

def secondsInDay : Nat := 86400

/-- Whether the numbers are a second of a day and a nanosecond of it; only the
last second of a minute can be a leap second. -/
def IsTime (second nano : Nat) : Prop :=
  second < secondsInDay ∧ nano < 2 * nanosInSecond ∧
    (nanosInSecond ≤ nano → second % 60 = 59)

instance (second nano : Nat) : Decidable (IsTime second nano) := by
  unfold IsTime
  infer_instance

/-- A moment in universal time. -/
structure Instant where
  date : Date
  second : Nat
  nano : Nat
  isTime : IsTime second nano
deriving DecidableEq

namespace Instant

def ofParts? (date : Date) (second nano : Nat) : Option Instant :=
  if isTime : IsTime second nano then some ⟨date, second, nano, isTime⟩ else none

def epoch : Instant := ⟨Date.epoch, 0, 0, by decide⟩

instance : Inhabited Instant := ⟨epoch⟩

/-- The moment of a local time in a zone whose clocks are `offset` seconds
ahead, if the calendar reaches it. -/
def ofLocal? (date : Date) (second nano : Nat) (offset : Int) : Option Instant :=
  let shifted : Int := (second : Int) - offset
  if shifted < 0 then
    date.previous?.bind fun day =>
      ofParts? day (shifted + secondsInDay).toNat nano
  else if (secondsInDay : Int) ≤ shifted then
    date.next?.bind fun day =>
      ofParts? day (shifted - secondsInDay).toNat nano
  else ofParts? date shifted.toNat nano

/-- A fraction of a second in the fewest of 0, 3, 6 or 9 digits. -/
def fractionText (nano : Nat) : List Char :=
  if nano = 0 then []
  else if nano % 1000000 = 0 then '.' :: paddedText 3 (nano / 1000000)
  else if nano % 1000 = 0 then '.' :: paddedText 6 (nano / 1000)
  else '.' :: paddedText 9 nano

/-- Date and time without a zone. -/
def localText (moment : Instant) : List Char :=
  let leap := moment.nano / nanosInSecond
  moment.date.text ++ 'T' :: paddedText 2 (moment.second / 3600)
    ++ ':' :: paddedText 2 (moment.second / 60 % 60)
    ++ ':' :: paddedText 2 (moment.second % 60 + leap)
    ++ fractionText (moment.nano % nanosInSecond)

/-- The written form with zone `Z`. -/
def text (moment : Instant) : List Char :=
  moment.localText ++ ['Z']

/-- The written form with zone `+00:00`, which tables keep. -/
def columnText (moment : Instant) : List Char :=
  moment.localText ++ "+00:00".toList

end Instant

end Depot.Calendar
