import Depot.Text.Character

/-!
Contract: cutting texts at characters and taking known beginnings off.

Owns: the cut at the first separator, the removal of one or of all leading
copies of a word, and the reading of whole texts as integers of a given range.
Does not own: grammars with more than one rule.
-/

namespace Depot.Text

/-- What stands before and after the first separator, if there is one. -/
def cutAt? (separator : Char) : List Char → Option (List Char × List Char)
  | [] => none
  | character :: rest =>
      if character = separator then some ([], rest)
      else (cutAt? separator rest).map fun cut => (character :: cut.1, cut.2)

/-- The part of the text before the first separator, or all of it. -/
def before (separator : Char) (text : List Char) : List Char :=
  text.takeWhile (· != separator)

/-- The pieces between separators; one more piece than there are separators. -/
def pieces (separator : Char) : List Char → List (List Char)
  | [] => [[]]
  | character :: rest =>
      if character = separator then [] :: pieces separator rest
      else
        match pieces separator rest with
        | [] => [[character]]
        | piece :: others => (character :: piece) :: others

/-- The rest of the text after a given beginning, if it begins so. -/
def rest? : (start : List Char) → List Char → Option (List Char)
  | [], text => some text
  | _ :: _, [] => none
  | wanted :: start, character :: text =>
      if wanted = character then rest? start text else none

/-- Taking a non-empty beginning off leaves a shorter text. -/
theorem length_of_rest? {start text remaining : List Char}
    (found : rest? start text = some remaining) :
    remaining.length + start.length = text.length := by
  induction start generalizing text with
  | nil =>
      simp only [rest?, Option.some.injEq] at found
      simp [found]
  | cons wanted start inductionHypothesis =>
      cases text with
      | nil => simp [rest?] at found
      | cons character text =>
          by_cases same : wanted = character
          · simp only [rest?, same, ↓reduceIte] at found
            have shorter := inductionHypothesis found
            simp only [List.length_cons]
            omega
          · simp [rest?, same] at found

/-- The text without any of the copies of a word that it starts with. The word
is `first :: others`, so that it is not empty. -/
def dropCopies (first : Char) (others : List Char) (text : List Char) : List Char :=
  match _found : rest? (first :: others) text with
  | none => text
  | some remaining => dropCopies first others remaining
termination_by text.length
decreasing_by
  have shorter := length_of_rest? _found
  simp only [List.length_cons] at shorter
  omega

/-- `dropCopies` for a word given as a string; an empty word drops nothing. -/
def withoutLeading (word : String) (text : List Char) : List Char :=
  match word.toList with
  | [] => text
  | first :: others => dropCopies first others text

/-- The text without any of the copies of a character that it ends with. -/
def withoutTrailing (character : Char) (text : List Char) : List Char :=
  (text.reverse.dropWhile (· == character)).reverse

def hasWithin (word : List Char) : List Char → Bool
  | [] => word.isEmpty
  | character :: rest => word.isPrefixOf (character :: rest) || hasWithin word rest

/-- A whole text of digits, with an optional plus sign, as a number below the
limit. -/
def readNat? (limit : Nat) (text : List Char) : Option Nat :=
  let digits := (rest? ['+'] text).getD text
  if digits.isEmpty || !digits.all isDigit then none
  else
    let value := digitsValue digits
    if value < limit then some value else none

/-- A whole text as a signed 64-bit number. -/
def readInt64? (text : List Char) : Option Int :=
  match text with
  | '-' :: digits =>
      if digits.isEmpty || !digits.all isDigit then none
      else
        let value := digitsValue digits
        if value ≤ Nat.pow 2 63 then some (-(value : Int)) else none
  | _ => (readNat? (Nat.pow 2 63) text).map Int.ofNat

end Depot.Text
