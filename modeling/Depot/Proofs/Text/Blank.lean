import Depot.Text.Character
import Mathlib.Data.List.DropRight

/-!
Contract: a trimmed text neither begins nor ends with a blank, and trimming leaves it as it is.

Owns: trimmed texts.
Does not own: what is read after trimming.
-/

namespace Depot.Text

variable {text : List Char}

theorem trimStart_of_head (begins : ∀ character ∈ text.head?, isBlank character = false) :
    trimStart text = text := by
  cases text with
  | nil => rfl
  | cons character text =>
      have solid : isBlank character = false := begins character rfl
      simp [trimStart, solid]

theorem trimEnd_eq_rdropWhile (text : List Char) : trimEnd text = text.rdropWhile isBlank := rfl

theorem trimEnd_of_getLast (ends : ∀ character ∈ text.getLast?, isBlank character = false) :
    trimEnd text = text := by
  rw [trimEnd_eq_rdropWhile, List.rdropWhile_eq_self_iff]
  intro some blank
  rw [ends _ (List.getLast?_eq_getLast_of_ne_nil some)] at blank
  cases blank

theorem trim_of_ends (begins : ∀ character ∈ text.head?, isBlank character = false)
    (ends : ∀ character ∈ text.getLast?, isBlank character = false) : trim text = text := by
  rw [trim, trimStart_of_head begins, trimEnd_of_getLast ends]

/-- A trimmed text does not end with a blank. -/
theorem solid_of_getLast_trim (text : List Char) :
    ∀ character ∈ (trim text).getLast?, isBlank character = false := by
  intro character last
  have some : trim text ≠ [] := by
    rintro none
    rw [none] at last
    cases last
  rw [List.getLast?_eq_getLast_of_ne_nil some, Option.mem_some_iff] at last
  rw [← last, Bool.eq_false_iff]
  exact List.rdropWhile_last_not isBlank (trimStart text) some

/-- A trimmed text does not begin with a blank. -/
theorem solid_of_head_trim (text : List Char) :
    ∀ character ∈ (trim text).head?, isBlank character = false := by
  intro character first
  obtain ⟨rest, whole⟩ : trim text <+: trimStart text := List.rdropWhile_prefix _ _
  cases trimmed : trim text with
  | nil =>
      rw [trimmed] at first
      cases first
  | cons other others =>
      rw [trimmed] at first whole
      cases first
      have solid := List.head?_dropWhile_not isBlank text
      rw [← trimStart, ← whole] at solid
      exact solid

theorem trim_trim (text : List Char) : trim (trim text) = trim text :=
  trim_of_ends (solid_of_head_trim text) (solid_of_getLast_trim text)

end Depot.Text
