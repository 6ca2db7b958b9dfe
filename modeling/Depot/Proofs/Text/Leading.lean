import Depot.Text.Split
import Mathlib.Data.List.Infix

/-!
Contract: known beginnings are taken off a text, and known words are found within it.

A beginning is taken off once or as often as it stands there. What is left is the text that
was written after it, and a text that does not begin so is left as it is.

Owns: beginnings that are taken off, and words within a text.
Does not own: which beginnings addresses have (`Depot.Proofs.Database.Address`).
-/

namespace Depot.Text

variable {start text rest : List Char} {word : String}

theorem rest?_eq_some_iff : rest? start text = some rest ↔ text = start ++ rest := by
  induction start generalizing text with
  | nil => simp [rest?]
  | cons wanted start inductionHypothesis =>
      cases text with
      | nil => simp [rest?]
      | cons character text =>
          rw [rest?]
          split
          next same => rw [inductionHypothesis, same, List.cons_append, List.cons_inj_right]
          next differs =>
            simp only [List.cons_append, List.cons.injEq, false_iff, not_and, reduceCtorEq]
            exact fun same => absurd same.symm differs

theorem rest?_append (start rest : List Char) : rest? start (start ++ rest) = some rest :=
  rest?_eq_some_iff.mpr rfl

theorem rest?_eq_none_iff : rest? start text = none ↔ ¬start <+: text := by
  rw [Option.eq_none_iff_forall_ne_some]
  constructor
  · rintro none ⟨rest, rfl⟩
    exact none rest (rest?_append start rest)
  · intro differs rest found
    exact differs ⟨rest, (rest?_eq_some_iff.mp found).symm⟩

/-- A text does not begin with what has another first character. -/
theorem not_prefix_of_ne {first character : Char} (differs : first ≠ character) :
    ¬first :: start <+: character :: text :=
  fun begins => differs (List.cons_prefix_cons.mp begins).1

/-! ### All copies of a beginning -/

theorem dropCopies_append (first : Char) (others rest : List Char) :
    dropCopies first others (first :: others ++ rest) = dropCopies first others rest := by
  rw [dropCopies]
  split
  next none => exact absurd (List.prefix_append _ _) (rest?_eq_none_iff.mp none)
  next remaining found =>
    rw [List.append_cancel_left (rest?_eq_some_iff.mp found)]

theorem dropCopies_of_not_prefix {first : Char} {others : List Char}
    (differs : ¬first :: others <+: text) : dropCopies first others text = text := by
  rw [dropCopies]
  split
  next => rfl
  next remaining found => exact absurd ⟨remaining, (rest?_eq_some_iff.mp found).symm⟩ differs

theorem withoutLeading_append (word : String) (rest : List Char) :
    withoutLeading word (word.toList ++ rest) = withoutLeading word rest := by
  unfold withoutLeading
  cases word.toList with
  | nil => rfl
  | cons first others => exact dropCopies_append first others rest

theorem withoutLeading_of_not_prefix (differs : ¬word.toList <+: text) :
    withoutLeading word text = text := by
  unfold withoutLeading
  cases letters : word.toList with
  | nil => rfl
  | cons first others => exact dropCopies_of_not_prefix (letters ▸ differs)

/-! ### Words within a text -/

theorem hasWithin_iff {word : List Char} : hasWithin word text = true ↔ word <:+: text := by
  induction text with
  | nil => simp [hasWithin]
  | cons character text inductionHypothesis =>
      rw [hasWithin, Bool.or_eq_true, List.isPrefixOf_iff_prefix, inductionHypothesis,
        List.infix_cons_iff]

end Depot.Text
