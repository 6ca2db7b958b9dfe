import Depot.Decimal.Binary64
import Mathlib.Data.Int.Order.Basic

/-!
Contract: the total order of words is the order of numbers.

The magnitude of a number grows with its word: within one exponent the significand grows, and
the least number of an exponent is above all of the exponent before. So words of one sign are
compared by value, and a number below zero comes before all others, minus zero included. Beyond
the finite numbers the same goes on with infinity and then with what is not a number.

Owns: magnitudes in order, and the total order.
Does not own: what is compared by numbers (`Depot.Proofs.View.Sorting`).
-/

namespace Depot.Decimal.Binary64

/-! ### Magnitudes -/

theorem units_lt_of_field (number : Binary64) :
    number.units < Nat.pow 2 52 * Nat.pow 2 number.exponentField := by
  have fraction : number.magnitude % Nat.pow 2 52 < Nat.pow 2 52 := Nat.mod_lt _ (by decide)
  unfold units significand power
  dsimp only
  split
  next least =>
    rw [least]
    simpa using fraction
  next normal =>
    obtain ⟨below, field⟩ := Nat.exists_eq_succ_of_ne_zero normal
    have double : Nat.pow 2 52 * Nat.pow 2 (below + 1) = 2 * Nat.pow 2 52 * Nat.pow 2 below := by
      have next : Nat.pow 2 (below + 1) = Nat.pow 2 below * 2 := Nat.pow_succ 2 below
      rw [next, Nat.mul_comm (Nat.pow 2 below), ← Nat.mul_assoc, Nat.mul_comm _ 2]
    rw [field, Nat.succ_eq_add_one, Nat.add_sub_cancel, double]
    apply Nat.mul_lt_mul_of_pos_right _ (Nat.two_pow_pos below)
    omega

theorem le_units_of_field {number : Binary64} (normal : number.exponentField ≠ 0) :
    Nat.pow 2 52 * Nat.pow 2 (number.exponentField - 1) ≤ number.units := by
  unfold units significand power
  dsimp only
  rw [if_neg normal]
  exact Nat.mul_le_mul_right _ (Nat.le_add_right _ _)

theorem units_lt_units_of_magnitude {left right : Binary64}
    (less : left.magnitude < right.magnitude) : left.units < right.units := by
  have fields : left.exponentField ≤ right.exponentField := Nat.div_le_div_right (Nat.le_of_lt less)
  rcases Nat.eq_or_lt_of_le fields with same | below
  · have fractions : left.magnitude % Nat.pow 2 52 < right.magnitude % Nat.pow 2 52 := by
      have leftParts := Nat.div_add_mod left.magnitude (Nat.pow 2 52)
      have rightParts := Nat.div_add_mod right.magnitude (Nat.pow 2 52)
      unfold exponentField at same
      rw [same] at leftParts
      omega
    unfold units significand power
    dsimp only
    rw [same]
    apply Nat.mul_lt_mul_of_pos_right _ (Nat.two_pow_pos _)
    split <;> omega
  · have step : left.exponentField ≤ right.exponentField - 1 := by omega
    calc left.units < Nat.pow 2 52 * Nat.pow 2 left.exponentField := left.units_lt_of_field
      _ ≤ Nat.pow 2 52 * Nat.pow 2 (right.exponentField - 1) :=
        Nat.mul_le_mul_left _ (Nat.pow_le_pow_right (by decide) step)
      _ ≤ right.units := le_units_of_field (by omega)

theorem units_lt_units_iff {left right : Binary64} :
    left.units < right.units ↔ left.magnitude < right.magnitude := by
  refine ⟨?_, units_lt_units_of_magnitude⟩
  intro less
  rcases Nat.lt_trichotomy left.magnitude right.magnitude with before | same | after
  · exact before
  · have equal : left.units = right.units := by
      unfold units significand power exponentField
      rw [same]
    omega
  · exact absurd (units_lt_units_of_magnitude after) (Nat.lt_asymm less)

/-! ### The total order -/

/-- Numbers in order: those with a sign first, then by value, where minus zero is below zero.
Infinity and what is not a number are counted in units as well, above all finite numbers. -/
def Precedes (left right : Binary64) : Prop :=
  match left.isNegative, right.isNegative with
  | true, false => True
  | false, true => False
  | false, false => left.units < right.units
  | true, true => right.units < left.units

theorem totalCompare_eq_lt (left right : Binary64) :
    totalCompare left right = .lt ↔ left.Precedes right := by
  rw [totalCompare, compare_lt_iff_lt]
  unfold rank Precedes
  cases left.isNegative <;> cases right.isNegative <;>
    simp only [Bool.false_eq_true, ↓reduceIte, units_lt_units_iff, iff_true, iff_false] <;> omega

/-- From one end to the other, with both zeros in the middle. -/
example : [⟨0xfff8000000000000⟩, infinity true, ⟨0x8000000000000001⟩, zero.negated, zero, ⟨1⟩,
    infinity false, nan].Pairwise fun left right => totalCompare left right = .lt := by decide

instance : Std.TransCmp totalCompare :=
  inferInstanceAs (Std.TransCmp (compareOn rank))

end Depot.Decimal.Binary64
