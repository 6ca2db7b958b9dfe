import Depot.Text.Character

/-!
Contract: numbers written in decimal and read again.

Owns: what a padded number consists of, and its value.
Does not own: where such numbers stand (`Depot.Proofs.Calendar.Columns`).
-/

namespace Depot.Text

theorem digitsValue_eq_ofDigitChars (digits : List Char) :
    digitsValue digits = Nat.ofDigitChars 10 digits 0 := by
  rw [digitsValue, Nat.ofDigitChars_eq_foldl]
  congr 1
  funext value digit
  show value * 10 + (digit.toNat - 48) = 10 * value + (digit.toNat - 48)
  omega

theorem isDigit_eq (character : Char) : isDigit character = character.isDigit := rfl

theorem forall_mem_natText (value : Nat) :
    ∀ character ∈ natText value, isDigit character = true := by
  intro character member
  rw [isDigit_eq]
  exact Nat.isDigit_of_mem_toDigits (by decide) (by decide) member

@[simp]
theorem digitsValue_natText (value : Nat) : digitsValue (natText value) = value := by
  rw [digitsValue_eq_ofDigitChars]
  exact Nat.ofDigitChars_ten_toDigits

theorem natText_ne_nil (value : Nat) : natText value ≠ [] := Nat.toDigits_ne_nil

/-- Only zero is written with a zero in front. -/
theorem head?_natText {value : Nat} (positive : 0 < value) : (natText value).head? ≠ some '0' := by
  induction value using Nat.strongRecOn with
  | ind value inductionHypothesis =>
      by_cases small : value < 10
      · rw [natText, Nat.toDigits_of_lt_base small, List.head?_cons]
        intro zero
        have none := Nat.digitChar_eq_zero.mp (Option.some.inj zero)
        omega
      · have large : 10 ≤ value := Nat.le_of_not_lt small
        have front := inductionHypothesis (value / 10) (by omega) (by omega)
        rw [natText, Nat.toDigits_of_base_le (by decide) large, List.head?_append]
        cases first : (Nat.toDigits 10 (value / 10)).head? with
        | none => exact absurd (List.head?_eq_none_iff.mp first) (natText_ne_nil _)
        | some digit =>
            rw [Option.some_or, ← first]
            exact front

theorem forall_mem_paddedText (width value : Nat) :
    ∀ character ∈ paddedText width value, isDigit character = true := by
  intro character member
  rcases List.mem_append.mp member with padding | digit
  · rw [List.eq_of_mem_replicate padding]
    decide
  · exact forall_mem_natText value character digit

@[simp]
theorem digitsValue_paddedText (width value : Nat) :
    digitsValue (paddedText width value) = value := by
  rw [digitsValue_eq_ofDigitChars]
  show Nat.ofDigitChars 10 (List.replicate _ '0' ++ Nat.toDigits 10 value) 0 = value
  rw [Nat.ofDigitChars_append, Nat.ofDigitChars_replicate_zero, Nat.mul_zero,
    Nat.ofDigitChars_ten_toDigits]

theorem length_paddedText_pos (width value : Nat) : 0 < (paddedText width value).length := by
  have digits : 0 < (natText value).length := Nat.length_toDigits_pos
  rw [paddedText, List.length_append]
  omega

/-- A number that its width has room for takes up exactly that width. -/
theorem length_paddedText {width value : Nat} (some : 0 < width) (fits : value < Nat.pow 10 width) :
    (paddedText width value).length = width := by
  have short : (natText value).length ≤ width :=
    (Nat.length_toDigits_le_iff (by decide) some).mpr fits
  rw [paddedText, List.length_append, List.length_replicate]
  omega

/-- Digits end where something else begins. -/
theorem takeWhile_isDigit_append {digits rest : List Char}
    (all : ∀ character ∈ digits, isDigit character = true)
    (ends : ∀ character ∈ rest.head?, isDigit character = false) :
    (digits ++ rest).takeWhile isDigit = digits ∧ (digits ++ rest).dropWhile isDigit = rest := by
  have stop : rest.takeWhile isDigit = [] ∧ rest.dropWhile isDigit = rest := by
    cases rest with
    | nil => exact ⟨rfl, rfl⟩
    | cons character rest =>
        have other : isDigit character = false := ends character rfl
        simp [other]
  rw [List.takeWhile_append_of_pos all, List.dropWhile_append_of_pos all, stop.1, stop.2,
    List.append_nil]
  exact ⟨rfl, rfl⟩

end Depot.Text
