import Depot.Json.Reader
import Depot.Json.Printer
import Depot.Proofs.Text.Digits

/-!
Contract: numerals are read as they were written.

A numeral is read off a text digit by digit, so that it must be followed by something that no
numeral goes on with. Where a numeral stands in a document, that is the end of the document,
a comma or a closing bracket. The numerals of integers and of doubles have digits after every
point, and so are read back part by part.

Owns: what numerals are written as, and that they are read back.
Does not own: what numerals stand for.
-/

namespace Depot.Json

open Depot.Decimal
open Depot.Text

/-- Whether the text ends, or goes on with a comma or a closing bracket. -/
def Stops (rest : List Char) : Prop :=
  ∀ character ∈ rest.head?, character = ',' ∨ character = ']' ∨ character = '}'

theorem stops_nil : Stops [] := by
  rintro character ⟨⟩

theorem stops_cons {character : Char}
    (closer : character = ',' ∨ character = ']' ∨ character = '}') (rest : List Char) :
    Stops (character :: rest) := by
  rintro other ⟨⟩
  exact closer

theorem Stops.isDigit {rest : List Char} (stops : Stops rest) :
    ∀ character ∈ rest.head?, isDigit character = false := by
  intro character head
  rcases stops character head with rfl | rfl | rfl <;> decide

namespace Numeral

/-- A numeral with a point has digits after it. -/
def IsWritten (numeral : Numeral) : Prop :=
  ∀ digits, numeral.fraction = some digits →
    digits ≠ [] ∧ ∀ character ∈ digits, isDigit character = true

/-! ### Parts -/

def fractionText (fraction : Option (List Char)) : List Char :=
  fraction.elim [] fun digits => '.' :: digits

def exponentTail (exponent : Option Int) : List Char := exponent.elim [] exponentText

theorem text_eq (numeral : Numeral) :
    numeral.text = (if numeral.negative then ['-'] else []) ++
      (natText numeral.whole ++
        (fractionText numeral.fraction ++ exponentTail numeral.exponent)) := by
  simp only [text, fractionText, exponentTail, List.append_assoc]

theorem takeWhile_natText (value : Nat) {rest : List Char}
    (ends : ∀ character ∈ rest.head?, isDigit character = false) :
    (natText value ++ rest).takeWhile isDigit = natText value ∧
      (natText value ++ rest).dropWhile isDigit = rest :=
  takeWhile_isDigit_append (forall_mem_natText value) ends

theorem isEmpty_natText (value : Nat) : (natText value).isEmpty = false := by
  cases written : natText value with
  | nil => exact absurd written (natText_ne_nil value)
  | cons => rfl

theorem readExponent?_tail (exponent : Option Int) {rest : List Char} (stops : Stops rest) :
    readExponent? (exponentTail exponent ++ rest) = some (exponent, rest) := by
  cases exponent with
  | none =>
      cases rest with
      | nil => rfl
      | cons character rest =>
          rcases stops character rfl with rfl | rfl | rfl <;> rfl
  | some power =>
      cases power with
      | ofNat power =>
          obtain ⟨taken, left⟩ := takeWhile_natText power stops.isDigit
          show readExponent? ('e' :: '+' :: (natText power ++ rest)) = _
          simp [readExponent?, taken, left, isEmpty_natText]
      | negSucc power =>
          obtain ⟨taken, left⟩ := takeWhile_natText (power + 1) stops.isDigit
          show readExponent? ('e' :: '-' :: (natText (power + 1) ++ rest)) = _
          simp [readExponent?, taken, left, isEmpty_natText, Int.negSucc_eq]

/-- After the digits of a numeral come its exponent and what stops it, or just the latter. -/
theorem exponentTail_ends (exponent : Option Int) {rest : List Char} (stops : Stops rest) :
    ∀ character ∈ (exponentTail exponent ++ rest).head?,
      isDigit character = false ∧ character ≠ '.' := by
  cases exponent with
  | none =>
      intro character head
      rcases stops character head with rfl | rfl | rfl <;> decide
  | some power =>
      cases power <;> (rintro character ⟨⟩; decide)

theorem readFraction?_text {fraction : Option (List Char)}
    (written : ∀ digits, fraction = some digits →
      digits ≠ [] ∧ ∀ character ∈ digits, isDigit character = true)
    {rest : List Char}
    (ends : ∀ character ∈ rest.head?, isDigit character = false ∧ character ≠ '.') :
    readFraction? (fractionText fraction ++ rest) = some (fraction, rest) := by
  cases fraction with
  | none =>
      show readFraction? rest = some (none, rest)
      unfold readFraction?
      split
      next => exact absurd rfl (ends '.' rfl).2
      next => rfl
  | some digits =>
      obtain ⟨some, all⟩ := written digits rfl
      obtain ⟨taken, left⟩ := takeWhile_isDigit_append all fun character head =>
        (ends character head).1
      show readFraction? ('.' :: (digits ++ rest)) = _
      have filled : digits.isEmpty = false := by
        cases digits with
        | nil => exact absurd rfl some
        | cons => rfl
      simp only [readFraction?, taken, left, filled, Bool.false_eq_true, ↓reduceIte]

theorem fractionText_ends (fraction : Option (List Char)) {rest : List Char}
    (ends : ∀ character ∈ rest.head?, isDigit character = false ∧ character ≠ '.') :
    ∀ character ∈ (fractionText fraction ++ rest).head?, isDigit character = false := by
  cases fraction with
  | none => exact fun character head => (ends character head).1
  | some digits =>
      rintro character ⟨⟩
      decide

/-! ### Numerals -/

/-- A whole part never has a zero in front of other digits. -/
theorem natText_solid (value : Nat) :
    ((natText value).isEmpty ||
      ((natText value).head? = some '0' && 1 < (natText value).length)) = false := by
  rw [isEmpty_natText, Bool.false_or]
  rcases Nat.eq_zero_or_pos value with rfl | positive
  · decide
  · have front := head?_natText positive
    simp [front]

theorem readUnsigned?_text (negative : Bool) {numeral : Numeral} (written : numeral.IsWritten)
    {rest : List Char} (stops : Stops rest) :
    readUnsigned? negative (natText numeral.whole ++
        (fractionText numeral.fraction ++ exponentTail numeral.exponent) ++ rest) =
      some ({ numeral with negative }, rest) := by
  have tailEnds := exponentTail_ends numeral.exponent stops
  have wholeEnds := fractionText_ends numeral.fraction tailEnds
  rw [← List.append_assoc] at wholeEnds
  obtain ⟨taken, left⟩ := takeWhile_natText numeral.whole wholeEnds
  rw [← List.append_assoc] at taken left
  simp only [readUnsigned?, List.append_assoc] at taken left ⊢
  simp only [taken, left, natText_solid, Bool.false_eq_true, ↓reduceIte,
    readFraction?_text written tailEnds, Option.bind_eq_bind, Option.bind_some,
    readExponent?_tail numeral.exponent stops, digitsValue_natText, Option.pure_def]

/-- A numeral is read as it was written. -/
theorem readNumeral?_text {numeral : Numeral} (written : numeral.IsWritten) {rest : List Char}
    (stops : Stops rest) : readNumeral? (numeral.text ++ rest) = some (numeral, rest) := by
  have read := readUnsigned?_text numeral.negative written stops
  rw [text_eq]
  cases sign : numeral.negative with
  | true =>
      rw [sign] at read
      rw [if_pos rfl, List.singleton_append, List.cons_append]
      show readUnsigned? true _ = _
      rw [read, ← sign]
  | false =>
      rw [sign] at read
      rw [if_neg Bool.false_ne_true, List.nil_append]
      cases whole : natText numeral.whole with
      | nil => exact absurd whole (natText_ne_nil _)
      | cons first others =>
          have digits := forall_mem_natText numeral.whole
          rw [whole] at digits read
          have unsigned : first ≠ '-' := by
            rintro rfl
            cases digits '-' List.mem_cons_self
          unfold readNumeral?
          split
          next same => exact absurd (List.cons.inj same).1 unsigned
          next => rw [read, ← sign]

/-! ### Integers and doubles -/

theorem isWritten_ofInt (value : Int) : (ofInt value).IsWritten := by
  intro digits same
  cases value <;> cases same

theorem forall_mem_positional (number : Scientific) :
    ∀ character ∈ number.positional.2, isDigit character = true := by
  have digits := forall_mem_natText number.digits
  unfold Scientific.positional
  split
  next => exact List.forall_mem_nil _
  next =>
    dsimp only
    split
    next =>
      intro character member
      exact digits character (List.mem_of_mem_drop member)
    next =>
      intro character member
      rcases List.mem_append.mp member with padding | digit
      · rw [List.eq_of_mem_replicate padding]
        decide
      · exact digits character digit

theorem forall_mem_normalized (number : Scientific) :
    ∀ character ∈ number.normalized.2, isDigit character = true := by
  intro character member
  exact forall_mem_natText number.digits character (List.mem_of_mem_drop member)

/-- A double has at least a zero after its point. -/
theorem isWritten_ofBinary64 (number : Binary64) : (ofBinary64 number).IsWritten := by
  have zero : ∀ character ∈ ['0'], isDigit character = true := List.forall_mem_singleton.mpr rfl
  intro digits same
  unfold ofBinary64 at same
  split at same
  next =>
    cases same
    exact ⟨List.cons_ne_nil _ _, zero⟩
  next =>
    dsimp only at same
    split at same
    next =>
      have all := forall_mem_positional number.shortest
      by_cases none : number.shortest.positional.2 = []
      · simp only [none, List.isEmpty_nil, ↓reduceIte, Option.some.injEq] at same
        subst same
        exact ⟨List.cons_ne_nil _ _, zero⟩
      · simp only [List.isEmpty_eq_false_iff.mpr none, Bool.false_eq_true, ↓reduceIte,
          Option.some.injEq] at same
        subst same
        exact ⟨none, all⟩
    next =>
      have all := forall_mem_normalized number.shortest
      by_cases none : number.shortest.normalized.2 = []
      · simp [none] at same
      · simp only [List.isEmpty_eq_false_iff.mpr none, Bool.false_eq_true, ↓reduceIte,
          Option.some.injEq] at same
        subst same
        exact ⟨none, all⟩

end Numeral

end Depot.Json
