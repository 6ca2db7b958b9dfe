import Depot.Calendar.Instant
import Depot.Text.Character
import Depot.Text.Split

/-!
Contract: dates and moments read by patterns.

A pattern is a list of items, each of which takes a beginning off the text. The
items fill in `Fields`; a date or moment comes of the fields only when every
number is in its range. Four readings are given: the lenient ones of documents,
and the ones of table columns, where several spellings are tried in turn.

Owns: the items, the patterns and what their fields mean.
Does not own: the written forms (`Depot.Calendar.Date`, `Depot.Calendar.Instant`).
-/

namespace Depot.Calendar

open Depot.Text

/-- The numbers of a date and time as they stand in a text. -/
structure Fields where
  year : Int := 0
  month : Nat := 0
  day : Nat := 0
  hour : Nat := 0
  minute : Nat := 0
  second : Nat := 0
  nano : Nat := 0
  offset : Option Int := none

/-- The places of a pattern that hold a number. -/
inductive Place where
  | year
  | month
  | day
  | hour
  | minute
  | second
deriving DecidableEq, Repr

def Place.width : Place → Nat
  | .year => 4
  | _ => 2

def Fields.put (fields : Fields) (place : Place) (value : Int) : Fields :=
  match place with
  | .year => { fields with year := value }
  | .month => { fields with month := value.toNat }
  | .day => { fields with day := value.toNat }
  | .hour => { fields with hour := value.toNat }
  | .minute => { fields with minute := value.toNat }
  | .second => { fields with second := value.toNat }

/-- The spellings of a zone. -/
inductive Zone where
  /-- `Z`, or a sign, two digits, a colon and two digits. -/
  | strict
  /-- `Z` or `UTC`, or a sign and four digits with any colons and blanks between. -/
  | lenient
  /-- A sign and four digits with any colons and blanks between. -/
  | numeric
deriving DecidableEq, Repr

/-- One step of a pattern. -/
inductive Item where
  /-- A number of its full width. -/
  | full (place : Place)
  /-- Blanks, then a number of at most its full width; a year with a sign may be
  of any width. -/
  | loose (place : Place)
  /-- An optional point with digits; digits past the ninth are dropped. -/
  | fraction
  /-- Any number of blanks. -/
  | blanks
  /-- One of the given characters. -/
  | oneOf (characters : List Char)
  /-- A zone. -/
  | zone (spelling : Zone)
deriving DecidableEq, Repr

/-- A number of at least one and at most `width` digits. -/
def takeNumber? (width : Nat) (text : List Char) : Option (Nat × List Char) :=
  let digits := (text.take width).takeWhile isDigit
  if digits.isEmpty then none
  else some (digitsValue digits, text.drop digits.length)

/-- A year with an optional sign; with one it may have any width. -/
def takeYear? (text : List Char) : Option (Int × List Char) :=
  match text with
  | '-' :: rest =>
      (takeNumber? rest.length rest).map fun read => (-(read.1 : Int), read.2)
  | '+' :: rest =>
      (takeNumber? rest.length rest).map fun read => ((read.1 : Int), read.2)
  | _ => (takeNumber? 4 text).map fun read => ((read.1 : Int), read.2)

/-- Two digits between the given least and greatest tens. -/
def takeTwo? (greatestTen : Char) (text : List Char) : Option (Nat × List Char) :=
  match text with
  | ten :: one :: rest =>
      if isDigit ten && isDigit one && ten ≤ greatestTen then
        some (digitsValue [ten, one], rest)
      else none
  | _ => none

/-- A sign and an offset in hours and minutes, as seconds. -/
def takeOffset? (colonOnly : Bool) (text : List Char) : Option (Int × List Char) :=
  match text with
  | sign :: rest =>
      let direction : Option Int :=
        if sign = '+' then some 1
        else if sign = '-' || sign = '−' then some (-1)
        else none
      direction.bind fun direction =>
        (takeTwo? '9' rest).bind fun (hours, afterHours) =>
          let separated :=
            if colonOnly then rest? [':'] afterHours
            else some (afterHours.dropWhile fun character => character = ':' || isBlank character)
          separated.bind fun minutesText =>
            (takeTwo? '5' minutesText).map fun (minutes, remaining) =>
              (direction * ((hours * 3600 + minutes * 60 : Nat) : Int), remaining)
  | [] => none

def takeZone? (spelling : Zone) (text : List Char) : Option (Int × List Char) :=
  match spelling, text with
  | .strict, 'Z' :: rest | .strict, 'z' :: rest => some (0, rest)
  | .strict, _ => takeOffset? true text
  | .lenient, _ =>
      if lower (text.take 3) = "utc".toList then some (0, text.drop 3)
      else
        match text with
        | 'Z' :: rest | 'z' :: rest => some (0, rest)
        | _ => takeOffset? false text
  | .numeric, _ => takeOffset? false (trimStart text)

/-- The digits after a point as nanoseconds. -/
def nanosOf (digits : List Char) : Nat :=
  let kept := digits.take 9
  digitsValue kept * Nat.pow 10 (9 - kept.length)

def Item.take? (fields : Fields) (text : List Char) : Item → Option (Fields × List Char)
  | .full place =>
      match takeNumber? place.width text with
      | some (value, rest) =>
          if text.length = rest.length + place.width then
            some (fields.put place value, rest)
          else none
      | none => none
  | .loose .year =>
      (takeYear? (trimStart text)).map fun read => (fields.put .year read.1, read.2)
  | .loose place =>
      (takeNumber? place.width (trimStart text)).map fun read =>
        (fields.put place read.1, read.2)
  | .fraction =>
      match text with
      | '.' :: rest =>
          let digits := rest.takeWhile isDigit
          if digits.isEmpty then none
          else some ({ fields with nano := nanosOf digits }, rest.dropWhile isDigit)
      | _ => some (fields, text)
  | .blanks => some (fields, trimStart text)
  | .oneOf characters =>
      match text with
      | character :: rest => if characters.contains character then some (fields, rest) else none
      | [] => none
  | .zone spelling =>
      (takeZone? spelling text).map fun read =>
        ({ fields with offset := some read.1 }, read.2)

/-- The fields of a whole text that follows the pattern. -/
def readFields? (fields : Fields) : List Item → List Char → Option Fields
  | [], text => if text.isEmpty then some fields else none
  | item :: items, text =>
      (item.take? fields text).bind fun read => readFields? read.1 items read.2

def Fields.date? (fields : Fields) : Option Date :=
  Date.ofParts? fields.year fields.month fields.day

/-- The moment that the fields name in a zone `offset` seconds ahead. Second 60
is a leap second. -/
def Fields.moment? (fields : Fields) (offset : Int) : Option Instant :=
  fields.date?.bind fun date =>
    if 23 < fields.hour || 59 < fields.minute || 60 < fields.second then none
    else
      let leap := fields.second = 60
      let second :=
        fields.hour * 3600 + fields.minute * 60 + (if leap then 59 else fields.second)
      let nano := fields.nano + (if leap then nanosInSecond else 0)
      Instant.ofLocal? date second nano offset

/-- An offset of less than a day. -/
def isOffset (offset : Int) : Bool :=
  -86400 < offset && offset < 86400

/-- Year, month and day with hyphens, each number after any blanks. -/
def datePattern : List Item :=
  [.loose .year, .oneOf ['-'], .loose .month, .oneOf ['-'], .loose .day]

def minutePattern : List Item :=
  [.loose .hour, .oneOf [':'], .loose .minute]

def secondPattern : List Item :=
  minutePattern ++ [.oneOf [':'], .loose .second, .fraction]

/-- A date of a document: blanks may stand around its parts. -/
def readDate? (text : List Char) : Option Date :=
  (readFields? {}
    [.loose .year, .blanks, .oneOf ['-'], .loose .month, .blanks, .oneOf ['-'],
     .loose .day, .blanks] text).bind Fields.date?

def readColumnDate? (text : List Char) : Option Date :=
  (readFields? {} datePattern text).bind Fields.date?

/-- A moment of a document: date, `T` or a space, time with seconds, zone. -/
def readInstant? (text : List Char) : Option Instant :=
  (readFields? {}
    [.loose .year, .blanks, .oneOf ['-'], .loose .month, .blanks, .oneOf ['-'],
     .loose .day, .oneOf ['T', 't', ' '],
     .loose .hour, .blanks, .oneOf [':'], .loose .minute, .blanks, .oneOf [':'],
     .loose .second, .fraction, .blanks, .zone .lenient, .blanks] text).bind
    fun fields =>
      fields.offset.bind fun offset =>
        if isOffset offset then fields.moment? offset else none

/-- The spelling of moments with every number in full width. -/
def strictPattern : List Item :=
  [.full .year, .oneOf ['-'], .full .month, .oneOf ['-'], .full .day,
   .oneOf ['T', 't', ' '],
   .full .hour, .oneOf [':'], .full .minute, .oneOf [':'], .full .second,
   .fraction, .zone .strict]

/-- The spellings of moments that a table column may hold beside the strict
one, in the order in which they are tried. -/
def columnPatterns : List (List Item) :=
  let afterBlank := datePattern ++ [.blanks]
  let afterMark := datePattern ++ [.oneOf ['T']]
  let zulu : List Item := [.oneOf ['Z']]
  let zoned : List Item := [.zone .numeric]
  [afterBlank ++ secondPattern,
   afterBlank ++ minutePattern,
   afterBlank ++ minutePattern ++ zulu,
   afterBlank ++ minutePattern ++ zoned,
   afterBlank ++ secondPattern ++ zulu,
   afterBlank ++ secondPattern ++ zoned,
   afterMark ++ minutePattern,
   afterMark ++ minutePattern ++ zulu,
   afterMark ++ minutePattern ++ zoned,
   afterMark ++ secondPattern,
   afterMark ++ secondPattern ++ zulu,
   afterMark ++ secondPattern ++ zoned]

/-- A moment of a table column. Without a zone the time is universal; so it is
with an offset of a day or more. -/
def readColumnInstant? (text : List Char) : Option Instant :=
  let strict := (readFields? {} strictPattern text).bind fun fields =>
    fields.offset.bind fun offset =>
      if isOffset offset then fields.moment? offset else none
  let lenient := columnPatterns.findSome? fun pattern =>
    (readFields? {} pattern text).bind fun fields =>
      match fields.offset with
      | some offset =>
          if isOffset offset then (fields.moment? offset).or (fields.moment? 0)
          else fields.moment? 0
      | none => fields.moment? 0
  strict.or lenient

end Depot.Calendar
