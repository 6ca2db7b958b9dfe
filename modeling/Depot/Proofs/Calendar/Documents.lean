import Depot.Proofs.Calendar.Columns

/-!
Contract: dates and moments in documents are read as they were written.

A document writes a moment with the zone `Z` and reads it leniently: blanks may stand where
none are ever written, so that each item for blanks leaves the text as it is.

Owns: reading back what `Calendar.Date.text` and `Calendar.Instant.text` write.
Does not own: table columns (`Depot.Proofs.Calendar.Columns`).
-/

namespace Depot.Calendar

open Depot.Text

variable {fields : Fields} {items : List Item} {rest : List Char}

/-- Nothing is taken off a text that does not begin with a blank. -/
theorem readFields?_blanks {text : List Char}
    (begins : ∀ character ∈ text.head?, isBlank character = false) :
    readFields? fields (.blanks :: items) text = readFields? fields items text := by
  refine readFields?_cons ?_
  rw [Item.take?, trimStart_of_head begins]

/-- The items for blanks before a mark do not matter. -/
theorem readFields?_blanksMark {mark : Char} (solid : isBlank mark = false) :
    readFields? fields (.blanks :: .oneOf [mark] :: items) (mark :: rest) =
      readFields? fields items rest := by
  rw [readFields?_blanks (by rintro character ⟨⟩; exact solid),
    readFields?_mark _ _ (by simp)]

theorem readFields?_documentDate (date : Date) :
    readFields? fields
        (.loose .year :: .blanks :: .oneOf ['-'] :: .loose .month :: .blanks :: .oneOf ['-'] ::
          .loose .day :: items) (date.text ++ rest) =
      readFields? { fields with year := date.year, month := date.month, day := date.day }
        items rest := by
  obtain ⟨smallMonth, smallDay⟩ := date.isDay.small
  have written : date.text ++ rest = Date.yearText date.year ++
      '-' :: (paddedText 2 date.month ++ '-' :: (paddedText 2 date.day ++ rest)) := by
    simp [Date.text]
  rw [written, readFields?_cons (take?_year date.year (by rintro character ⟨⟩; decide)),
    readFields?_blanksMark (by decide),
    readFields?_cons (takesTwo_loose.takes .month _ date.month _ (by decide) smallMonth),
    readFields?_blanksMark (by decide),
    readFields?_cons (takesTwo_loose.takes .day _ date.day _ (by decide) smallDay)]
  rfl

/-- A date of a document is read as it was written. -/
theorem readDate?_text (date : Date) : readDate? date.text = some date := by
  have read : readFields? {}
      [.loose .year, .blanks, .oneOf ['-'], .loose .month, .blanks, .oneOf ['-'],
        .loose .day, .blanks] (date.text ++ []) =
      readFields? { year := date.year, month := date.month, day := date.day } [.blanks] [] :=
    readFields?_documentDate date
  rw [List.append_nil, readFields?_blanks (by rintro character ⟨⟩)] at read
  rw [readDate?, read]
  simp only [readFields?, List.isEmpty_nil, ↓reduceIte, Option.bind_some, Fields.date?,
    Date.ofParts?, date.isDay, ↓reduceDIte]

/-- What a moment is written with after the mark behind its date. -/
theorem Instant.text_eq (moment : Instant) :
    moment.text = moment.date.text ++ 'T' :: (paddedText 2 (moment.second / 3600) ++
      ':' :: (paddedText 2 (moment.second / 60 % 60) ++
        ':' :: (paddedText 2 (moment.second % 60 + moment.nano / nanosInSecond) ++
          (fractionText (moment.nano % nanosInSecond) ++ ['Z'])))) := by
  simp [text, localText]

theorem readFields?_instant (moment : Instant) :
    readFields? {}
        [.loose .year, .blanks, .oneOf ['-'], .loose .month, .blanks, .oneOf ['-'],
          .loose .day, .oneOf ['T', 't', ' '],
          .loose .hour, .blanks, .oneOf [':'], .loose .minute, .blanks, .oneOf [':'],
          .loose .second, .fraction, .blanks, .zone .lenient, .blanks] moment.text =
      some moment.spelt := by
  obtain ⟨smallHour, smallMinute, smallSecond⟩ := moment.isTime.small
  have fits : moment.nano % nanosInSecond < nanosInSecond := Nat.mod_lt _ (by decide)
  have solid : ∀ character ∈ ['Z'].head?, isDigit character = false ∧ character ≠ '.' := by
    rintro character ⟨⟩
    decide
  have zoned : ∀ fields : Fields, (Item.zone .lenient).take? fields ['Z'] =
      some ({ fields with offset := some 0 }, []) := fun _ => rfl
  rw [Instant.text_eq, readFields?_documentDate, readFields?_mark _ _ (by decide),
    readFields?_cons (takesTwo_loose.takes .hour _ _ _ (by decide) smallHour),
    readFields?_blanksMark (by decide),
    readFields?_cons (takesTwo_loose.takes .minute _ _ _ (by decide) smallMinute),
    readFields?_blanksMark (by decide),
    readFields?_cons (takesTwo_loose.takes .second _ _ _ (by decide) smallSecond),
    readFields?_cons (take?_fraction _ rfl fits solid),
    readFields?_blanks (by rintro character ⟨⟩; decide),
    readFields?_cons (zoned _), readFields?_blanks (by rintro character ⟨⟩)]
  rfl

/-- A moment of a document is read as it was written. -/
theorem readInstant?_text (moment : Instant) : readInstant? moment.text = some moment := by
  have offset : isOffset 0 = true := by decide
  have zoned : moment.spelt.offset = some 0 := rfl
  simp only [readInstant?, readFields?_instant, zoned, Option.bind_some, offset, ↓reduceIte,
    moment.moment?_spelt]

end Depot.Calendar
