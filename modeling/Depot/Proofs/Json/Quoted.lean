import Depot.Json.Reader
import Depot.Json.Printer

/-!
Contract: texts in quotes are read as they were written.

Every character is written on its own: as itself, as a short escape, or as four hexadecimal
digits for the control characters without one. Reading takes exactly that much off the text,
whatever follows, so that a whole text comes back by induction on its characters.

Owns: one character, and a text, between quotes.
Does not own: halves of surrogate pairs, which are read but never written.
-/

namespace Depot.Json

open Depot.Text

/-- A unit that is no half of a surrogate pair is a character. -/
theorem joined?_unit {unit : Nat} (small : unit < 0x20) (pieces : List Piece) :
    joined? (.unit unit :: pieces) = (joined? pieces).map (Char.ofNat unit :: ·) := by
  have notLeading : isLeading unit = false := by
    simp only [isLeading, Bool.and_eq_false_iff, decide_eq_false_iff_not]
    omega
  have notTrailing : isTrailing unit = false := by
    simp only [isTrailing, Bool.and_eq_false_iff, decide_eq_false_iff_not]
    omega
  cases pieces with
  | nil => simp [joined?, notLeading, notTrailing]
  | cons piece pieces => cases piece <;> simp [joined?, notLeading, notTrailing]

theorem hexText_four (value : Nat) : hexText 4 value =
    [hexChar (value / 16 / 16 / 16), hexChar (value / 16 / 16), hexChar (value / 16),
      hexChar value] := rfl

theorem fourHex?_small : ∀ value < 0x20,
    fourHex? (hexChar (value / 16 / 16 / 16)) (hexChar (value / 16 / 16)) (hexChar (value / 16))
      (hexChar value) = some value := by
  decide

theorem readPieces?_plain {character : Char} (solid : ¬character.toNat < 0x20)
    (notQuote : character ≠ '"') (notBackslash : character ≠ '\\') (rest : List Char) :
    readPieces? (character :: rest) =
      (readPieces? rest).map fun read => (.plain character :: read.1, read.2) := by
  rw [readPieces?.eq_def]
  split
  next same => cases same
  next same => exact absurd (List.cons.inj same).1 notQuote
  next same => exact absurd (List.cons.inj same).1 notBackslash
  next same => exact absurd (List.cons.inj same).1 notBackslash
  next same =>
    obtain ⟨rfl, rfl⟩ := List.cons.inj same
    simp only [solid, notBackslash, decide_false, Bool.or_self, Bool.false_eq_true, ↓reduceIte]
    cases readPieces? rest <;> rfl

theorem readPieces?_escape {letter character : Char}
    (stands : shortEscape? letter = some character) (rest : List Char) :
    readPieces? ('\\' :: letter :: rest) =
      (readPieces? rest).map fun read => (.plain character :: read.1, read.2) := by
  rw [readPieces?.eq_def]
  split
  next same => cases same
  next same => exact absurd (List.cons.inj same).1 (by decide)
  next same =>
    -- A numbered character is marked by a letter that is no short escape.
    have numbered := (List.cons.inj (List.cons.inj same).2).1
    rw [numbered] at stands
    cases stands
  next same =>
    obtain ⟨rfl, rfl⟩ := List.cons.inj (List.cons.inj same).2
    rw [stands]
    cases readPieces? rest <;> rfl
  next short same =>
    obtain ⟨rfl, rfl⟩ := List.cons.inj same
    exact (short letter rest rfl rfl).elim

/-- One character is read off the front of a text in quotes. -/
theorem readQuoted?_escaped (character : Char) (rest : List Char) :
    readQuoted? (escaped character ++ rest) =
      (readQuoted? rest).map fun read => (read.1.map (character :: ·), read.2) := by
  have plain : ∀ {start : List Char}, readPieces? (start ++ rest) =
      (readPieces? rest).map (fun read => (.plain character :: read.1, read.2)) →
      readQuoted? (start ++ rest) =
        (readQuoted? rest).map fun read => (read.1.map (character :: ·), read.2) := by
    intro start taken
    rw [readQuoted?, taken, readQuoted?]
    cases readPieces? rest <;> rfl
  unfold escaped
  split
  case h_8 notQuote notBackslash _ _ _ _ _ =>
    split
    next small =>
      have unit := fourHex?_small character.toNat small
      rw [hexText_four, readQuoted?, readQuoted?]
      simp only [List.cons_append, List.nil_append, readPieces?, unit]
      cases readPieces? rest with
      | none => rfl
      | some read =>
          show some (joined? (.unit character.toNat :: read.1), read.2) = _
          rw [joined?_unit small, Char.ofNat_toNat]
          rfl
    next large =>
      exact plain (readPieces?_plain large notQuote notBackslash rest)
  all_goals
    refine plain ?_
    exact readPieces?_escape rfl rest

/-- A text is read from after its first quote on, and what follows the last one is left. -/
theorem readQuoted?_text (text : List Char) (rest : List Char) :
    readQuoted? (text.flatMap escaped ++ '"' :: rest) = some (some text, rest) := by
  induction text with
  | nil => simp [readQuoted?, readPieces?, joined?]
  | cons character text inductionHypothesis =>
      rw [List.flatMap_cons, List.append_assoc, readQuoted?_escaped, inductionHypothesis]
      rfl

end Depot.Json
