import Depot.Calendar.Pattern
import Depot.Proofs.Text.Blank
import Depot.Proofs.Text.Digits

/-!
Contract: dates and moments in table columns are read as they were written.

A column keeps a moment as text with the zone `+00:00`. Years of four digits are read by the
strict spelling; a year with a sign is none of its numbers in full width, and is left to the
last of the other spellings, because the ones before it either miss the mark between date
and time or stop too early.

Owns: reading back what `Calendar.Date.text` and `Calendar.Instant.columnText` write.
Does not own: readings of documents, or of texts that were written by others.
-/

namespace Depot.Calendar

open Depot.Text

/-! ### Numbers -/

theorem isBlank_of_isDigit {character : Char} (digit : isDigit character = true) :
    isBlank character = false := by
  have bounds : 48 ≤ character.toNat ∧ character.toNat ≤ 57 := by
    rw [isDigit_eq, Char.isDigit, Bool.and_eq_true, decide_eq_true_eq, decide_eq_true_eq] at digit
    exact digit
  simp only [isBlank, blankRanges, List.any_cons, List.any_nil, Bool.or_false, Bool.or_eq_false_iff,
    Bool.and_eq_false_iff, decide_eq_false_iff_not, Nat.not_le]
  omega

/-- Digits that fill the width, or that something else ends, are a number. -/
theorem takeNumber?_append {width : Nat} {digits rest : List Char}
    (all : ∀ character ∈ digits, isDigit character = true) (some : 0 < digits.length)
    (fits : digits.length ≤ width)
    (ends : ∀ character ∈ (rest.take (width - digits.length)).head?,
      isDigit character = false) :
    takeNumber? width (digits ++ rest) = .some (digitsValue digits, rest) := by
  have taken : ((digits ++ rest).take width).takeWhile isDigit = digits := by
    rw [List.take_append, List.take_of_length_le fits]
    exact (takeWhile_isDigit_append all ends).1
  have filled : digits.isEmpty = false := by
    cases digits with
    | nil => cases some
    | cons => rfl
  simp [takeNumber?, taken, filled]

theorem takeNumber?_paddedText {width value : Nat} (some : 0 < width)
    (fits : value < Nat.pow 10 width) (rest : List Char) :
    takeNumber? width (paddedText width value ++ rest) = .some (value, rest) := by
  have length := length_paddedText some fits
  have ends : ∀ character ∈ (rest.take (width - (paddedText width value).length)).head?,
      isDigit character = false := by
    rw [length, Nat.sub_self]
    rintro character ⟨⟩
  rw [takeNumber?_append (forall_mem_paddedText width value) (length_paddedText_pos width value)
    (Nat.le_of_eq length) ends, digitsValue_paddedText]

theorem trimStart_paddedText (width value : Nat) (rest : List Char) :
    trimStart (paddedText width value ++ rest) = paddedText width value ++ rest := by
  refine trimStart_of_head ?_
  have digits := forall_mem_paddedText width value
  have some := length_paddedText_pos width value
  cases written : paddedText width value with
  | nil => rw [written] at some; cases some
  | cons first others =>
      rw [written] at digits
      rintro character ⟨⟩
      exact isBlank_of_isDigit (digits first List.mem_cons_self)

/-! ### Items -/

variable {fields after : Fields} {item : Item} {items : List Item} {text rest : List Char}

theorem readFields?_cons (taken : item.take? fields text = some (after, rest)) :
    readFields? fields (item :: items) text = readFields? after items rest := by
  rw [readFields?, taken, Option.bind_some]

theorem readFields?_mark (characters : List Char) (mark : Char)
    (listed : characters.contains mark = true) :
    readFields? fields (.oneOf characters :: items) (mark :: rest) =
      readFields? fields items rest := by
  refine readFields?_cons ?_
  show (if characters.contains mark then some (fields, rest) else none) = some (fields, rest)
  rw [if_pos listed]

/-- The two kinds of items that a number of two digits is read by. -/
structure TakesTwo (number : Place → Item) : Prop where
  takes : ∀ (place : Place) (fields : Fields) (value : Nat) (rest : List Char),
    place ≠ .year → value < 100 →
    (number place).take? fields (paddedText 2 value ++ rest) =
      some (fields.put place value, rest)

theorem takesTwo_full : TakesTwo .full where
  takes := by
    intro place fields value rest notYear small
    have width : place.width = 2 := by cases place <;> first | rfl | exact absurd rfl notYear
    have read : takeNumber? 2 (paddedText 2 value ++ rest) = some (value, rest) :=
      takeNumber?_paddedText (by decide) small rest
    have length : (paddedText 2 value ++ rest).length = rest.length + 2 := by
      rw [List.length_append, length_paddedText (by decide) small, Nat.add_comm]
    simp only [Item.take?, width, read, length, ↓reduceIte]

theorem takesTwo_loose : TakesTwo .loose where
  takes := by
    intro place fields value rest notYear small
    have read : takeNumber? 2 (paddedText 2 value ++ rest) = some (value, rest) :=
      takeNumber?_paddedText (by decide) small rest
    cases place with
    | year => exact absurd rfl notYear
    | month | day | hour | minute | second =>
        simp only [Item.take?, Place.width, trimStart_paddedText, read, Option.map_some]

/-! ### Dates -/

theorem IsDay.small {year : Int} {month day : Nat} (isDay : IsDay year month day) :
    month < 100 ∧ day < 100 := by
  obtain ⟨-, -, first, last⟩ := isDay
  unfold daysInMonth at last
  split at last
  next february => split at last <;> omega
  next =>
    split at last
    next => omega
    next => split at last <;> omega

/-- A year is read with its sign, which stands exactly where four digits would not do. -/
theorem take?_year (year : Int) (ends : ∀ character ∈ rest.head?, isDigit character = false) :
    (Item.loose .year).take? fields (Date.yearText year ++ rest) =
      some ({ fields with year }, rest) := by
  have signed : ∀ value : Nat,
      takeNumber? (paddedText 4 value ++ rest).length (paddedText 4 value ++ rest) =
        some (value, rest) := by
    intro value
    have inside : (paddedText 4 value).length ≤ (paddedText 4 value ++ rest).length := by
      rw [List.length_append]
      omega
    rw [takeNumber?_append (forall_mem_paddedText 4 value) (length_paddedText_pos 4 value) inside,
      digitsValue_paddedText]
    intro character head
    refine ends character ?_
    cases rest with
    | nil => simp at head
    | cons first others =>
        rw [List.length_append, Nat.add_sub_cancel_left] at head
        simpa using head
  have read : takeYear? (trimStart (Date.yearText year ++ rest)) = some (year, rest) := by
    cases year with
    | ofNat value =>
        by_cases short : value ≤ 9999
        · have number := takeNumber?_paddedText (by decide : 0 < 4)
            (Nat.lt_succ_of_le short) rest
          have digits := forall_mem_paddedText 4 value
          simp only [Date.yearText, if_pos short, trimStart_paddedText]
          cases written : paddedText 4 value with
          | nil =>
              have some := length_paddedText_pos 4 value
              rw [written] at some
              cases some
          | cons first others =>
              rw [written] at number digits
              have digit := digits first List.mem_cons_self
              have notMinus : first ≠ '-' := by rintro rfl; cases digit
              have notPlus : first ≠ '+' := by rintro rfl; cases digit
              unfold takeYear?
              split
              next same => exact absurd (List.cons.inj same).1 notMinus
              next same => exact absurd (List.cons.inj same).1 notPlus
              next => rw [number]; rfl
        · simp only [Date.yearText, if_neg short]
          show (takeNumber? (paddedText 4 value ++ rest).length (paddedText 4 value ++ rest)).map
            (fun read => ((read.1 : Int), read.2)) = some (Int.ofNat value, rest)
          rw [signed]
          rfl
    | negSucc value =>
        show (takeNumber? (paddedText 4 (value + 1) ++ rest).length
            (paddedText 4 (value + 1) ++ rest)).map
          (fun read => (-(read.1 : Int), read.2)) = some (Int.negSucc value, rest)
        rw [signed]
        rfl
  rw [Item.take?, read]
  rfl

theorem readFields?_monthAndDay {number : Place → Item} (takes : TakesTwo number) {month day : Nat}
    (smallMonth : month < 100) (smallDay : day < 100) :
    readFields? fields
        (.oneOf ['-'] :: number .month :: .oneOf ['-'] :: number .day :: items)
        ('-' :: (paddedText 2 month ++ '-' :: (paddedText 2 day ++ rest))) =
      readFields? { fields with month, day } items rest := by
  rw [readFields?_mark _ _ rfl,
    readFields?_cons (takes.takes .month _ month _ (by decide) smallMonth),
    readFields?_mark _ _ rfl,
    readFields?_cons (takes.takes .day _ day _ (by decide) smallDay)]
  rfl

theorem readFields?_date (date : Date) :
    readFields? fields (datePattern ++ items) (date.text ++ rest) =
      readFields? { fields with year := date.year, month := date.month, day := date.day }
        items rest := by
  obtain ⟨smallMonth, smallDay⟩ := date.isDay.small
  have written : date.text ++ rest = Date.yearText date.year ++
      '-' :: (paddedText 2 date.month ++ '-' :: (paddedText 2 date.day ++ rest)) := by
    simp [Date.text]
  rw [written]
  show readFields? fields (.loose .year :: .oneOf ['-'] :: .loose .month :: .oneOf ['-'] ::
    .loose .day :: items) _ = _
  rw [readFields?_cons (take?_year date.year (by rintro character ⟨⟩; decide)),
    readFields?_monthAndDay takesTwo_loose smallMonth smallDay]

/-- A date of a column is read as it was written. -/
theorem readColumnDate?_text (date : Date) : readColumnDate? date.text = some date := by
  have read : readFields? {} (datePattern ++ []) (date.text ++ []) =
      readFields? { year := date.year, month := date.month, day := date.day } [] [] :=
    readFields?_date date
  rw [List.append_nil, List.append_nil] at read
  rw [readColumnDate?, read]
  simp only [readFields?, List.isEmpty_nil, ↓reduceIte, Option.bind_some, Fields.date?,
    Date.ofParts?, date.isDay, ↓reduceDIte]

/-! ### Times -/

/-- The zone that columns are written with. -/
def zone : List Char := "+00:00".toList

/-- A fraction of 3, 6 or 9 digits is worth the nanoseconds that it was made of. -/
theorem take?_fraction (fields : Fields) {nano : Nat} (none : fields.nano = 0)
    (fits : nano < nanosInSecond)
    (ends : ∀ character ∈ rest.head?, isDigit character = false ∧ character ≠ '.') :
    Item.fraction.take? fields (Instant.fractionText nano ++ rest) =
      some ({ fields with nano }, rest) := by
  have digits : ∀ width value : Nat, width ≤ 9 → 0 < width → value < Nat.pow 10 width →
      Item.fraction.take? fields ('.' :: paddedText width value ++ rest) =
        some ({ fields with nano := value * 10 ^ (9 - width) }, rest) := by
    intro width value short some room
    have ends : ∀ character ∈ rest.head?, isDigit character = false :=
      fun character head => (ends character head).1
    obtain ⟨taken, left⟩ := takeWhile_isDigit_append (forall_mem_paddedText width value) ends
    have length := length_paddedText some room
    have filled : (paddedText width value).isEmpty = false := by
      cases written : paddedText width value with
      | nil => rw [written] at length; cases length; cases some
      | cons => rfl
    have worth : nanosOf (paddedText width value) = value * 10 ^ (9 - width) := by
      rw [nanosOf, List.take_of_length_le (by omega), digitsValue_paddedText, length]
      rfl
    show (if ((paddedText width value ++ rest).takeWhile isDigit).isEmpty then Option.none
      else Option.some
        ({ fields with nano := nanosOf ((paddedText width value ++ rest).takeWhile isDigit) },
          (paddedText width value ++ rest).dropWhile isDigit)) = _
    rw [taken, left, filled, worth]
    rfl
  unfold nanosInSecond at fits
  unfold Instant.fractionText
  split
  next zero =>
    subst zero
    rw [List.nil_append, Item.take?, ← none]
    rintro others rfl
    exact (ends '.' rfl).2 rfl
  next =>
    split
    next millis =>
      have whole : nano / 1000000 * 10 ^ (9 - 3) = nano := by omega
      have room : nano / 1000000 < 1000 := by omega
      rw [digits 3 _ (by decide) (by decide) room, whole]
    next =>
      split
      next micros =>
        have whole : nano / 1000 * 10 ^ (9 - 6) = nano := by omega
        have room : nano / 1000 < 1000000 := by omega
        rw [digits 6 _ (by decide) (by decide) room, whole]
      next =>
        rw [digits 9 _ (by decide) (by decide) fits]
        simp

/-- The numbers that a moment is written with. -/
def Instant.spelt (moment : Instant) : Fields where
  year := moment.date.year
  month := moment.date.month
  day := moment.date.day
  hour := moment.second / 3600
  minute := moment.second / 60 % 60
  second := moment.second % 60 + moment.nano / nanosInSecond
  nano := moment.nano % nanosInSecond
  offset := some 0

/-- What a moment is written with after its date. -/
def Instant.clock (moment : Instant) : List Char :=
  'T' :: (paddedText 2 (moment.second / 3600) ++
    ':' :: (paddedText 2 (moment.second / 60 % 60) ++
      ':' :: (paddedText 2 (moment.second % 60 + moment.nano / nanosInSecond) ++
        (fractionText (moment.nano % nanosInSecond) ++ zone))))

theorem Instant.columnText_eq (moment : Instant) :
    moment.columnText = moment.date.text ++ moment.clock := by
  simp [columnText, localText, clock, zone]

theorem IsTime.small {second nano : Nat} (isTime : IsTime second nano) :
    second / 3600 < 100 ∧ second / 60 % 60 < 100 ∧ second % 60 + nano / nanosInSecond < 100 := by
  obtain ⟨inDay, inSecond, -⟩ := isTime
  unfold secondsInDay at inDay
  unfold nanosInSecond at inSecond ⊢
  omega

theorem readFields?_hourAndMinute {number : Place → Item} (takes : TakesTwo number)
    {hour minute : Nat} (smallHour : hour < 100) (smallMinute : minute < 100) :
    readFields? fields (number .hour :: .oneOf [':'] :: number .minute :: items)
        (paddedText 2 hour ++ ':' :: (paddedText 2 minute ++ rest)) =
      readFields? { fields with hour, minute } items rest := by
  rw [readFields?_cons (takes.takes .hour _ hour _ (by decide) smallHour),
    readFields?_mark _ _ rfl,
    readFields?_cons (takes.takes .minute _ minute _ (by decide) smallMinute)]
  rfl

theorem readFields?_second {number : Place → Item} (takes : TakesTwo number) (fields : Fields)
    (none : fields.nano = 0) {second nano : Nat} (small : second < 100)
    (fits : nano < nanosInSecond) :
    readFields? fields (.oneOf [':'] :: number .second :: .fraction :: items)
        (':' :: (paddedText 2 second ++ (Instant.fractionText nano ++ zone))) =
      readFields? { fields with second, nano } items zone := by
  rw [readFields?_mark _ _ rfl,
    readFields?_cons (takes.takes .second _ second _ (by decide) small),
    readFields?_cons
      (take?_fraction (fields.put .second second) none fits (by rintro character ⟨⟩; decide))]
  rfl

theorem Instant.ofLocal?_zero (date : Date) {second nano : Nat} (isTime : IsTime second nano) :
    ofLocal? date second nano 0 = some ⟨date, second, nano, isTime⟩ := by
  have notBefore : ¬(second : Int) - 0 < 0 := by omega
  have notAfter : ¬(secondsInDay : Int) ≤ (second : Int) - 0 := by
    have inDay := isTime.1
    omega
  have sameSecond : ((second : Int) - 0).toNat = second := by omega
  simp only [ofLocal?, if_neg notBefore, if_neg notAfter, sameSecond, ofParts?, dif_pos isTime]

theorem Fields.moment?_eq_some {date : Date} {second nano : Nat} (isTime : IsTime second nano)
    (named : fields.date? = some date)
    (inRange : fields.hour ≤ 23 ∧ fields.minute ≤ 59 ∧ fields.second ≤ 60)
    (seconds : fields.hour * 3600 + fields.minute * 60 +
      (if fields.second = 60 then 59 else fields.second) = second)
    (nanos : fields.nano + (if fields.second = 60 then nanosInSecond else 0) = nano) :
    fields.moment? 0 = some ⟨date, second, nano, isTime⟩ := by
  have within : ¬(decide (23 < fields.hour) || decide (59 < fields.minute) ||
      decide (60 < fields.second)) = true := by
    simp only [Bool.or_eq_true, decide_eq_true_eq]
    omega
  rw [← Instant.ofLocal?_zero date isTime, ← seconds, ← nanos, moment?, named, Option.bind_some,
    if_neg within]

/-- The second that was written as 60 is a leap second again. -/
theorem Instant.moment?_spelt (moment : Instant) : moment.spelt.moment? 0 = some moment := by
  obtain ⟨date, second, nano, isTime⟩ := moment
  have named : (spelt ⟨date, second, nano, isTime⟩).date? = some date := by
    simp only [Fields.date?, spelt, Date.ofParts?, date.isDay, ↓reduceDIte]
  obtain ⟨inDay, inSecond, leaps⟩ := isTime
  unfold secondsInDay at inDay
  unfold nanosInSecond at inSecond leaps
  refine Fields.moment?_eq_some _ named ?_ ?_ ?_
  · show second / 3600 ≤ 23 ∧ second / 60 % 60 ≤ 59 ∧ second % 60 + nano / 1000000000 ≤ 60
    omega
  · show second / 3600 * 3600 + second / 60 % 60 * 60 +
      (if second % 60 + nano / 1000000000 = 60 then 59 else second % 60 + nano / 1000000000) =
        second
    split <;> omega
  · show nano % 1000000000 +
      (if second % 60 + nano / 1000000000 = 60 then 1000000000 else 0) = nano
    split <;> omega

/-! ### Moments -/

theorem readFields?_zone {spelling : Zone} (known : spelling ≠ .lenient) :
    readFields? fields [.zone spelling] zone = some { fields with offset := some 0 } := by
  have taken : takeZone? spelling zone = some (0, []) := by
    cases spelling with
    | strict => decide
    | lenient => exact absurd rfl known
    | numeric => decide
  have item : (Item.zone spelling).take? fields zone =
      some ({ fields with offset := some 0 }, []) := by
    rw [Item.take?, taken]
    rfl
  rw [readFields?_cons item]
  rfl

/-- What stands after the date, up to the zone. -/
theorem readFields?_clock {number : Place → Item} (takes : TakesTwo number) (moment : Instant)
    (none : fields.nano = 0) {marks : List Char} (marked : marks.contains 'T' = true) :
    readFields? fields
        (.oneOf marks :: number .hour :: .oneOf [':'] :: number .minute ::
          .oneOf [':'] :: number .second :: .fraction :: items) moment.clock =
      readFields?
        { moment.spelt with
          year := fields.year
          month := fields.month
          day := fields.day
          offset := fields.offset } items zone := by
  obtain ⟨smallHour, smallMinute, smallSecond⟩ := moment.isTime.small
  have fits : moment.nano % nanosInSecond < nanosInSecond := Nat.mod_lt _ (by decide)
  rw [Instant.clock, readFields?_mark _ _ marked,
    readFields?_hourAndMinute takes smallHour smallMinute,
    readFields?_second takes
      { fields with hour := moment.second / 3600, minute := moment.second / 60 % 60 } none
      smallSecond fits]
  rfl

theorem readFields?_strict (moment : Instant) {year : Nat} (dated : moment.date.year = year)
    (short : year ≤ 9999) : readFields? {} strictPattern moment.columnText = some moment.spelt := by
  obtain ⟨smallMonth, smallDay⟩ := moment.date.isDay.small
  have yearText : Date.yearText moment.date.year = paddedText 4 year := by
    rw [dated]
    exact if_pos short
  have text : moment.columnText = paddedText 4 year ++
      '-' :: (paddedText 2 moment.date.month ++
        '-' :: (paddedText 2 moment.date.day ++ moment.clock)) := by
    simp [Instant.columnText_eq, Date.text, yearText]
  have taken : ∀ rest : List Char, (Item.full .year).take? {} (paddedText 4 year ++ rest) =
      some ({ year := (year : Int) }, rest) := by
    intro rest
    have read := takeNumber?_paddedText (by decide : 0 < 4) (Nat.lt_succ_of_le short) rest
    have length : (paddedText 4 year ++ rest).length = rest.length + 4 := by
      rw [List.length_append, length_paddedText (by decide) (Nat.lt_succ_of_le short), Nat.add_comm]
    simp only [Item.take?, Place.width, read, length, ↓reduceIte, Fields.put]
  rw [text, strictPattern, readFields?_cons (taken _),
    readFields?_monthAndDay takesTwo_full smallMonth smallDay,
    readFields?_clock takesTwo_full moment rfl (by decide), readFields?_zone (by decide)]
  simp only [Instant.spelt, dated]

/-- A year with a sign is no number in full width. -/
theorem readFields?_strict_signed (moment : Instant)
    (signed : ∀ year : Nat, moment.date.year = year → 9999 < year) :
    readFields? {} strictPattern moment.columnText = none := by
  have signedText : ∃ sign rest, isDigit sign = false ∧ moment.columnText = sign :: rest := by
    rw [Instant.columnText_eq, Date.text]
    cases dated : moment.date.year with
    | ofNat year =>
        have long : ¬year ≤ 9999 := Nat.not_le.mpr (signed year dated)
        simp only [Date.yearText, if_neg long, List.cons_append]
        exact ⟨'+', _, by decide, rfl⟩
    | negSucc year => exact ⟨'-', _, by decide, rfl⟩
  obtain ⟨sign, rest, noDigit, text⟩ := signedText
  have missing : (Item.full .year).take? {} (sign :: rest) = none := by
    simp [Item.take?, takeNumber?, Place.width, noDigit]
  rw [text, strictPattern, readFields?, missing, Option.bind_none]

theorem readFields?_last (moment : Instant) :
    readFields? {} (datePattern ++ [.oneOf ['T']] ++ secondPattern ++ [.zone .numeric])
      moment.columnText = some moment.spelt := by
  rw [Instant.columnText_eq, List.append_assoc, List.append_assoc, readFields?_date]
  show readFields? _ (.oneOf ['T'] :: .loose .hour :: .oneOf [':'] :: .loose .minute ::
    .oneOf [':'] :: .loose .second :: .fraction :: [.zone .numeric]) moment.clock = _
  rw [readFields?_clock takesTwo_loose moment rfl (by decide), readFields?_zone (by decide)]
  rfl

/-- The mark between date and time is no blank. -/
theorem readFields?_blank (moment : Instant) :
    readFields? fields (.blanks :: .loose .hour :: items) moment.clock = none := by
  have noBlank : isBlank 'T' = false := by decide
  have noDigit : isDigit 'T' = false := by decide
  simp [readFields?, Item.take?, Instant.clock, trimStart, noBlank, takeNumber?, Place.width,
    noDigit]

/-- A minute is not the end, and what follows it is neither `Z` nor a zone. -/
theorem readFields?_minute (moment : Instant)
    (ends : items = [] ∨ items = [.oneOf ['Z']] ∨ items = [.zone .numeric]) :
    readFields? fields (.oneOf ['T'] :: .loose .hour :: .oneOf [':'] :: .loose .minute :: items)
      moment.clock = none := by
  obtain ⟨smallHour, smallMinute, -⟩ := moment.isTime.small
  rw [Instant.clock, readFields?_mark _ _ rfl,
    readFields?_hourAndMinute takesTwo_loose smallHour smallMinute]
  have noBlank : isBlank ':' = false := by decide
  rcases ends with rfl | rfl | rfl
  · rfl
  · rfl
  · simp [readFields?, Item.take?, takeZone?, trimStart, noBlank, takeOffset?]

/-- Nor is a second the end. -/
theorem readFields?_zoneless (ends : items = [] ∨ items = [.oneOf ['Z']]) :
    readFields? fields items zone = none := by
  rcases ends with rfl | rfl <;> rfl

/-- All spellings before the last one fail. -/
theorem readFields?_front (moment : Instant) {pattern : List Item}
    (listed : pattern ∈ columnPatterns.dropLast) :
    readFields? {} pattern moment.columnText = none := by
  have second : ∀ {fields : Fields} {items : List Item}, fields.nano = 0 →
      items = [] ∨ items = [.oneOf ['Z']] →
      readFields? fields (.oneOf ['T'] :: (secondPattern ++ items)) moment.clock = none := by
    intro fields items none ends
    show readFields? _ (.oneOf ['T'] :: .loose .hour :: .oneOf [':'] :: .loose .minute ::
      .oneOf [':'] :: .loose .second :: .fraction :: items) moment.clock = _
    rw [readFields?_clock takesTwo_loose moment none (by decide), readFields?_zoneless ends]
  rw [Instant.columnText_eq]
  simp only [columnPatterns, List.dropLast_cons_cons, List.dropLast_singleton, List.mem_cons,
    List.not_mem_nil, or_false] at listed
  rcases listed with rfl | rfl | rfl | rfl | rfl | rfl | rfl | rfl | rfl | rfl | rfl <;>
    simp only [List.append_assoc, readFields?_date]
  iterate 6 exact readFields?_blank moment
  · exact readFields?_minute moment (.inl rfl)
  · exact readFields?_minute moment (.inr (.inl rfl))
  · exact readFields?_minute moment (.inr (.inr rfl))
  · exact second rfl (.inl rfl)
  · exact second rfl (.inr rfl)

/-- A moment of a column is read as it was written. -/
theorem readColumnInstant?_columnText (moment : Instant) :
    readColumnInstant? moment.columnText = some moment := by
  have offset : isOffset 0 = true := by decide
  have zoned : moment.spelt.offset = some 0 := rfl
  rw [readColumnInstant?]
  by_cases short : ∃ year : Nat, moment.date.year = year ∧ year ≤ 9999
  · obtain ⟨year, dated, short⟩ := short
    simp only [readFields?_strict moment dated short, zoned, Option.bind_some, offset,
      ↓reduceIte, moment.moment?_spelt, Option.some_or]
  · have signed : ∀ year : Nat, moment.date.year = year → 9999 < year := by
      intro year dated
      exact Nat.lt_of_not_le fun small => short ⟨year, dated, small⟩
    have split : columnPatterns = columnPatterns.dropLast ++
        [datePattern ++ [.oneOf ['T']] ++ secondPattern ++ [.zone .numeric]] := rfl
    rw [readFields?_strict_signed moment signed, Option.bind_none, Option.none_or, split,
      List.findSome?_append, List.findSome?_eq_none_iff.mpr, Option.none_or,
      List.findSome?_singleton, readFields?_last, Option.bind_some, zoned]
    · simp only [offset, ↓reduceIte, moment.moment?_spelt, Option.some_or]
    · intro pattern listed
      rw [readFields?_front moment listed, Option.bind_none]

end Depot.Calendar
