import Depot.Database.Basic
import Depot.Proofs.View.Stable
import Mathlib.Data.Prod.Lex
import Mathlib.Data.String.Basic

/-!
Contract: the order of cells, and lists of rows in the order of their numbers.

Cells are ordered as their ranks are: empty ones below numbers below texts, numbers by
value, texts by characters. The rank of a number counts units of the least double, so that
integers and doubles share one scale.

Owns: the rank, and that sorting by number and dropping rows may change places.
Does not own: which numbers a database has (`Depot.Proofs.Database.Sound`).
-/

namespace Depot.Database

open Decimal

namespace Cell

/-- Where a cell stands in the order of cells. -/
def rank : Cell → Nat ×ₗ Int ×ₗ String
  | .empty => toLex (0, toLex (0, ""))
  | .integer value => toLex (1, toLex (value * Binary64.unitsInOne, ""))
  | .real value => toLex (1, toLex (signedUnits value, ""))
  | .text value => toLex (2, toLex (0, value))

theorem unitsInOne_pos : (0 : Int) < Binary64.unitsInOne := by
  delta Binary64.unitsInOne
  generalize 1074 = power
  exact Int.natCast_pos.mpr (Nat.two_pow_pos power)

/-- Scaling keeps the order of integers. -/
theorem scaled_le_iff (left right : Int) :
    left * Binary64.unitsInOne ≤ right * Binary64.unitsInOne ↔ left ≤ right :=
  Int.mul_le_mul_right unitsInOne_pos

theorem number_le_iff (first second : Int) :
    (toLex (1, toLex (first, "")) : Nat ×ₗ Int ×ₗ String) ≤ toLex (1, toLex (second, "")) ↔
      first ≤ second := by
  simp [Prod.Lex.toLex_le_toLex, ← le_iff_lt_or_eq]

-- The unit is made a variable before the cases are split: as a power of two it would be
-- evaluated in each of them.
theorem order_ne_gt_iff (left right : Cell) :
    left.order right ≠ .gt ↔ left.rank ≤ right.rank := by
  have scaled := scaled_le_iff
  revert scaled
  unfold order rank
  generalize (Binary64.unitsInOne : Int) = unit
  intro scaled
  cases left <;> cases right <;> simp only [compare_le_iff_le, number_le_iff, scaled] <;>
    simp [Prod.Lex.toLex_le_toLex, ← le_iff_lt_or_eq]

theorem order_eq_iff (left right : Cell) : left.order right = .eq ↔ left.rank = right.rank := by
  have injective : ∀ first second : Int,
      first * Binary64.unitsInOne = second * Binary64.unitsInOne ↔ first = second := by
    intro first second
    exact Int.mul_eq_mul_right_iff unitsInOne_pos.ne'
  revert injective
  unfold order rank
  generalize (Binary64.unitsInOne : Int) = unit
  intro injective
  cases left <;> cases right <;> simp [injective]

/-- A text agrees with nothing but itself. -/
@[simp]
theorem agrees_text (cell : Cell) (name : String) :
    cell.agrees (.text name) = decide (cell = .text name) := by
  cases cell <;> simp [agrees, isEmpty, order]

end Cell

theorem byNumber_perm {α : Type} (number : α → Cell) (rows : List α) :
    (byNumber number rows).Perm rows :=
  List.mergeSort_perm _ _

/-- Rows whose numbers all differ are in the same order whether rows are dropped before or
after sorting. -/
theorem byNumber_filter {α : Type} (number : α → Cell) (keep : α → Bool) {rows : List α}
    (distinct : ∀ left ∈ rows, ∀ right ∈ rows,
      (number left).rank = (number right).rank → left = right) :
    byNumber number (rows.filter keep) = (byNumber number rows).filter keep := by
  have sorted : ∀ list : List α, (byNumber number list).Pairwise fun left right =>
      (number left).rank ≤ (number right).rank :=
    pairwise_rank_mergeSort fun left right => Cell.order_ne_gt_iff (number left) (number right)
  have rearranged : (byNumber number (rows.filter keep)).Perm
      ((byNumber number rows).filter keep) :=
    (List.mergeSort_perm _ _).trans ((List.mergeSort_perm rows _).symm.filter keep)
  -- Both lists are in order and hold the same rows; only level rows could differ in place.
  refine List.Perm.eq_of_pairwise ?_ (sorted _) ((sorted rows).filter keep) rearranged
  intro left right memberLeft memberRight below above
  have insideLeft : left ∈ rows := (List.mem_filter.mp (List.mem_mergeSort.mp memberLeft)).1
  have insideRight : right ∈ rows := List.mem_mergeSort.mp (List.mem_filter.mp memberRight).1
  exact distinct left insideLeft right insideRight (le_antisymm below above)

end Depot.Database
