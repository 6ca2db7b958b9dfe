import Depot.Json.Numeral
import Depot.Proofs.Text.Digits
import Mathlib.Algebra.Group.Int.Defs
import Mathlib.Algebra.Group.Nat.Defs

/-!
Contract: the doubles that numerals stand for are finite.

A numeral gives the first digits that fit into 64 bits, and the double nearest to them, which
is then multiplied or divided by powers of ten. A product that is too large is no number, and
a quotient by a power of ten has hardly more bits than what is divided, so that no reading
comes near infinity. The bounds are coarse: a few binary places are given away in each step.

Owns: bounds on rounded quotients, and that numerals stand for finite doubles.
Does not own: which double a numeral stands for.
-/

namespace Depot.Decimal

/-! ### Rounding -/

theorem roundDiv_le (numerator denominator : Nat) :
    roundDiv numerator denominator ≤ numerator / denominator + 1 := by
  unfold roundDiv
  dsimp only
  split <;> omega

theorem le_roundDiv (numerator denominator : Nat) :
    numerator / denominator ≤ roundDiv numerator denominator := by
  unfold roundDiv
  dsimp only
  split <;> omega

/-- What is left of a number when all but its first 53 bits are cut off. -/
theorem div_two_pow_log2_lt (value : Nat) : value / 2 ^ (value.log2 - 52) < 2 ^ 53 := by
  refine Nat.div_lt_of_lt_mul ?_
  rw [← Nat.pow_add]
  refine Nat.lt_of_lt_of_le Nat.lt_log2_self ?_
  exact Nat.pow_le_pow_right (by decide) (by omega)

theorem le_div_two_pow_log2 {value : Nat} (long : 2 ^ 52 ≤ value) :
    2 ^ 52 ≤ value / 2 ^ (value.log2 - 52) := by
  have some : value ≠ 0 := by
    rintro rfl
    exact absurd long (by decide)
  have bits : 52 ≤ value.log2 := (Nat.le_log2 some).mpr long
  rw [Nat.le_div_iff_mul_le (Nat.two_pow_pos _), ← Nat.pow_add, Nat.add_sub_cancel' bits]
  exact Nat.log2_self_le some

namespace Binary64

/-- The unit is a power of two. It is given by a variable, so that nobody multiplies it out. -/
theorem exists_unitsInOne : ∃ power, unitsInOne = 2 ^ power ∧ power = 1074 := by
  refine ⟨1074, ?_, rfl⟩
  delta unitsInOne
  generalize 1074 = power
  rfl

/-- A quotient below `2 ^ places` is rounded to a double of at most twice that. -/
theorem nearest_le {numerator denominator places : Nat}
    (below : numerator < denominator * 2 ^ places) :
    nearest numerator denominator ≤ (places + 1023) * 2 ^ 52 := by
  have sum : ∀ shift rounded, shift ≤ places + 1021 → rounded ≤ 2 ^ 53 →
      shift * 2 ^ 52 + rounded ≤ (places + 1023) * 2 ^ 52 := by
    intro shift rounded shiftBelow roundedBelow
    omega
  obtain ⟨power, unit, isPower⟩ := exists_unitsInOne
  have shape : ∀ exponent, Nat.pow 2 exponent = 2 ^ exponent := fun _ => rfl
  unfold nearest
  simp only [unit, shape]
  generalize scaled : numerator * 2 ^ power = units
  generalize whole : units / denominator = quotient
  have quotientBelow : quotient < 2 ^ (places + power) := by
    rw [← whole, ← scaled, Nat.pow_add]
    refine Nat.div_lt_of_lt_mul ?_
    rw [← Nat.mul_assoc]
    exact Nat.mul_lt_mul_of_pos_right below (Nat.two_pow_pos power)
  have shiftBelow : quotient.log2 - 52 ≤ places + 1021 := by
    rcases Nat.eq_zero_or_pos quotient with rfl | some
    · simp
    · have bits := (Nat.log2_lt (Nat.ne_of_gt some)).mpr quotientBelow
      omega
  have rounded : roundDiv units (denominator * 2 ^ (quotient.log2 - 52)) ≤ 2 ^ 53 := by
    refine Nat.le_trans (roundDiv_le _ _) ?_
    rw [← Nat.div_div_eq_div_mul, whole]
    exact div_two_pow_log2_lt quotient
  exact Nat.le_trans (Nat.min_le_left _ _) (sum _ _ shiftBelow rounded)

/-- A number of at least one is rounded to a double of at least one. -/
theorem le_nearest {numerator : Nat} (some : 0 < numerator) :
    1023 * 2 ^ 52 ≤ nearest numerator 1 := by
  obtain ⟨power, unit, isPower⟩ := exists_unitsInOne
  have shape : ∀ exponent, Nat.pow 2 exponent = 2 ^ exponent := fun _ => rfl
  unfold nearest infinityMagnitude
  simp only [unit, shape]
  generalize scaled : numerator * 2 ^ power = units
  rw [Nat.div_one, Nat.one_mul]
  have long : 2 ^ power ≤ units := by
    rw [← scaled]
    exact Nat.le_mul_of_pos_left _ some
  have notZero : units ≠ 0 := by
    have positive := Nat.two_pow_pos power
    omega
  have bits : power ≤ units.log2 := (Nat.le_log2 notZero).mpr long
  have wide : 2 ^ 52 ≤ units :=
    Nat.le_trans (Nat.pow_le_pow_right (by decide) (by omega)) long
  have rounded : 2 ^ 52 ≤ roundDiv units (2 ^ (units.log2 - 52)) :=
    Nat.le_trans (le_div_two_pow_log2 wide) (le_roundDiv _ _)
  have shifted : 1022 * 2 ^ 52 ≤ (units.log2 - 52) * 2 ^ 52 :=
    Nat.mul_le_mul_right (2 ^ 52) (by omega)
  refine Nat.le_min.mpr ⟨?_, by decide⟩
  clear isPower
  omega

theorem nearest_le_infinity (numerator denominator : Nat) :
    nearest numerator denominator ≤ infinityMagnitude :=
  Nat.min_le_right _ _

/-! ### Magnitudes -/

theorem magnitude_ofMagnitude (negative : Bool) {magnitude : Nat}
    (small : magnitude < 2 ^ 63) : (ofMagnitude negative magnitude).magnitude = magnitude := by
  have half : Nat.pow 2 63 = 2 ^ 63 := rfl
  have signed : (if negative then 2 ^ 63 else 0) + magnitude < 2 ^ 64 := by
    split <;> omega
  rw [Binary64.magnitude, ofMagnitude, half, Nat.mod_eq_of_lt small]
  show (UInt64.ofNat ((if negative then 2 ^ 63 else 0) + magnitude)).toNat % 2 ^ 63 = magnitude
  rw [UInt64.toNat_ofNat_of_lt' signed]
  split <;> omega

theorem isFinite_ofMagnitude (negative : Bool) {magnitude : Nat}
    (finite : magnitude < infinityMagnitude) : (ofMagnitude negative magnitude).isFinite = true := by
  have infinite : infinityMagnitude = 2047 * 2 ^ 52 := rfl
  rw [isFinite, magnitude_ofMagnitude negative (by omega)]
  exact decide_eq_true finite

/-- The greatest magnitude that a reading can come to, in steps of the exponent. -/
def IsModest (places : Nat) (number : Binary64) : Prop :=
  number.magnitude ≤ (places + 1023) * 2 ^ 52

theorem IsModest.isFinite {places : Nat} {number : Binary64} (modest : IsModest places number)
    (few : places < 1024) : number.isFinite = true := by
  have infinite : infinityMagnitude = 2047 * 2 ^ 52 := rfl
  refine decide_eq_true ?_
  have bound : (places + 1023) * 2 ^ 52 ≤ 2046 * 2 ^ 52 := Nat.mul_le_mul_right _ (by omega)
  unfold IsModest at modest
  omega

/-- The units of a double are below twice what its exponent says. -/
theorem IsModest.units_lt {places : Nat} {number : Binary64} (modest : IsModest places number) :
    number.units < unitsInOne * 2 ^ (places + 2) := by
  obtain ⟨unitPower, unit, isPower⟩ := exists_unitsInOne
  have field : number.exponentField ≤ places + 1023 := by
    have quotient : number.magnitude / 2 ^ 52 ≤ (places + 1023) * 2 ^ 52 / 2 ^ 52 :=
      Nat.div_le_div_right modest
    rw [Nat.mul_div_cancel _ (Nat.two_pow_pos 52)] at quotient
    exact quotient
  have significand : number.significand < 2 ^ 53 := by
    have fraction := Nat.mod_lt number.magnitude (Nat.two_pow_pos 52)
    have hidden : Nat.pow 2 52 = 2 ^ 52 := rfl
    unfold Binary64.significand
    rw [hidden]
    dsimp only
    split <;> omega
  have power : 2 ^ number.power ≤ 2 ^ (places + 1023) :=
    Nat.pow_le_pow_right (by decide) (Nat.le_trans (Nat.sub_le _ _) field)
  have total : 2 ^ 53 * 2 ^ (places + 1023) = unitsInOne * 2 ^ (places + 2) := by
    rw [unit, ← Nat.pow_add, ← Nat.pow_add]
    clear unit
    congr 1
    omega
  rw [← total]
  exact Nat.lt_of_lt_of_le (Nat.mul_lt_mul_of_pos_right significand (Nat.two_pow_pos _))
    (Nat.mul_le_mul_left _ power)

theorem IsModest.mono {places more : Nat} {number : Binary64} (modest : IsModest places number)
    (within : places ≤ more) : IsModest more number :=
  Nat.le_trans modest (Nat.mul_le_mul_right _ (by omega))

theorem isModest_ofRatio (negative : Bool) {numerator denominator places : Nat}
    (below : numerator < denominator * 2 ^ places) :
    IsModest places (ofRatio negative numerator denominator) := by
  have infinite : infinityMagnitude = 2047 * 2 ^ 52 := rfl
  have bounded := nearest_le_infinity numerator denominator
  rw [IsModest, ofRatio, magnitude_ofMagnitude negative (by omega)]
  exact nearest_le below

end Binary64

open Binary64

/-! ### Powers of ten -/

/-- A power of ten is rounded to a double of at least one. -/
theorem unitsInOne_le_roundedPower (power : Nat) : unitsInOne ≤ (roundedPower power).units := by
  have infinite : infinityMagnitude = 2047 * 2 ^ 52 := rfl
  have bounded := nearest_le_infinity (10 ^ power) 1
  have large := le_nearest (Nat.pow_pos (by decide : 0 < 10) : 0 < 10 ^ power)
  have small : nearest (10 ^ power) 1 < 2 ^ 63 := by omega
  have magnitude : (roundedPower power).magnitude = nearest (10 ^ power) 1 :=
    magnitude_ofMagnitude false small
  have field : 1023 ≤ (roundedPower power).exponentField := by
    have quotient : 1023 * 2 ^ 52 / 2 ^ 52 ≤ (roundedPower power).magnitude / 2 ^ 52 := by
      rw [magnitude]
      exact Nat.div_le_div_right large
    rw [Nat.mul_div_cancel _ (Nat.two_pow_pos 52)] at quotient
    exact quotient
  have significand : 2 ^ 52 ≤ (roundedPower power).significand := by
    have normal : (roundedPower power).exponentField ≠ 0 := by omega
    rw [Binary64.significand, if_neg normal]
    exact Nat.le_add_right _ _
  obtain ⟨unitPower, unit, isPower⟩ := exists_unitsInOne
  have many : 52 ≤ unitPower := isPower ▸ (by decide : 52 ≤ 1074)
  have exponents : unitPower - 52 ≤ (roundedPower power).power := by
    rw [isPower]
    exact Nat.sub_le_sub_right field 1
  have gap : 2 ^ (unitPower - 52) ≤ 2 ^ (roundedPower power).power :=
    Nat.pow_le_pow_right (by decide) exponents
  rw [unit, ← Nat.add_sub_cancel' many, Nat.pow_add]
  exact Nat.mul_le_mul significand gap

/-- A quotient by a power of ten has hardly more places than what is divided. -/
theorem isModest_quotient {places : Nat} {number : Binary64} (modest : IsModest places number)
    (power : Nat) :
    IsModest (places + 2) (.ofMagnitude false (quotient number (roundedPower power))) := by
  refine isModest_ofRatio false (Nat.lt_of_lt_of_le modest.units_lt ?_)
  exact Nat.mul_le_mul_right _ (unitsInOne_le_roundedPower power)

theorem isModest_dividedDown {places : Nat} (fuel : Nat) {number : Binary64}
    (modest : IsModest places number) (exponent : Nat) :
    IsModest (places + 2 * fuel) (dividedDown fuel number exponent) := by
  induction fuel generalizing places number exponent with
  | zero => exact modest
  | succ fuel inductionHypothesis =>
      rw [dividedDown]
      split
      next => exact (isModest_quotient modest exponent).mono (by omega)
      next =>
        split
        next => exact modest.mono (by omega)
        next =>
          have rest := inductionHypothesis (isModest_quotient modest 308) (exponent - 308)
          exact rest.mono (by omega)

/-- The double of digits and an exponent is finite, if the digits fit into 64 bits. -/
theorem isFinite_of_stepwiseDecimal? {negative : Bool} {digits : Nat} (fit : digits < 2 ^ 64)
    {exponent : Int} {result : Binary64}
    (read : stepwiseDecimal? negative digits exponent = some result) :
    result.isFinite = true := by
  have start : IsModest 64 (ofNat digits) := by
    refine isModest_ofRatio false ?_
    rw [Nat.one_mul]
    exact fit
  have signed : ∀ number : Binary64, number.isFinite = true →
      some (ofMagnitude negative number.magnitude) = some result →
      result.isFinite = true := by
    intro number finite same
    rw [← Option.some.inj same]
    exact isFinite_ofMagnitude negative (of_decide_eq_true finite)
  cases exponent with
  | ofNat power =>
      simp only [stepwiseDecimal?] at read
      split at read
      next => exact signed _ (start.isFinite (by decide)) read
      next =>
        split at read
        next => exact absurd read.symm (Option.some_ne_none _)
        next =>
          split at read
          next below => exact signed _ (isFinite_ofMagnitude false below) read
          next => exact absurd read.symm (Option.some_ne_none _)
  | negSucc power =>
      exact signed _ ((isModest_dividedDown 4 start (power + 1)).isFinite (by decide)) read

end Depot.Decimal

namespace Depot.Json.Numeral

open Depot.Decimal
open Depot.Text

/-! ### Numerals -/

theorem absorb_lt {significand : Nat} (fits : significand < 2 ^ 64) (digits : List Char) :
    (absorb significand digits).1 < 2 ^ 64 := by
  induction digits generalizing significand with
  | nil => exact fits
  | cons digit digits inductionHypothesis =>
      simp only [absorb]
      split
      next below => exact inductionHypothesis below
      next => exact fits

theorem isFinite_of_double? {numeral : Numeral} {number : Binary64}
    (read : numeral.double? = some number) : number.isFinite = true := by
  refine isFinite_of_stepwiseDecimal? ?_ read
  exact absorb_lt (absorb_lt (Nat.two_pow_pos 64) _) _

/-- A numeral that stands for a double stands for a finite one. -/
theorem isFinite_of_value_double {numeral : Numeral} {number : Binary64}
    (stands : numeral.value = .double number) : number.isFinite = true := by
  have asDouble : numeral.double?.elim .tooLarge .double = Value.double number →
      number.isFinite = true := by
    intro same
    cases read : numeral.double? with
    | none =>
        rw [read] at same
        exact absurd same Value.noConfusion
    | some double =>
        rw [read] at same
        rw [← Value.double.inj same]
        exact isFinite_of_double? read
  unfold value at stands
  dsimp only at stands
  split at stands
  next => exact asDouble stands
  next =>
    split at stands
    next =>
      split at stands
      next => exact absurd stands Value.noConfusion
      next => exact asDouble stands
    next =>
      split at stands
      next => exact absurd stands Value.noConfusion
      next => exact asDouble stands

/-- A numeral that stands for an integer stands for one of at most 64 bits. -/
theorem natAbs_lt_of_value_integer {numeral : Numeral} {value : Int}
    (stands : numeral.value = .integer value) : value.natAbs < 2 ^ 64 := by
  have asDouble : numeral.double?.elim .tooLarge .double ≠ Value.integer value := by
    cases numeral.double? <;> exact Value.noConfusion
  have half : Nat.pow 2 63 = 2 ^ 63 := rfl
  have whole : Nat.pow 2 64 = 2 ^ 64 := rfl
  unfold Numeral.value at stands
  dsimp only at stands
  rw [half, whole] at stands
  split at stands
  next => exact absurd stands asDouble
  next =>
    split at stands
    next =>
      split at stands
      next bounds =>
        have same := Value.integer.inj stands
        omega
      next => exact absurd stands asDouble
    next =>
      split at stands
      next bound =>
        have same := Value.integer.inj stands
        omega
      next => exact absurd stands asDouble

/-- A numeral that stands for an integer stands for one that a finite double is nearest to. -/
theorem isFinite_of_value_integer {numeral : Numeral} {value : Int}
    (stands : numeral.value = .integer value) : (Binary64.ofInt value).isFinite = true := by
  have bound := natAbs_lt_of_value_integer stands
  have nearest : ∀ negative magnitude, magnitude < 2 ^ 64 →
      (Binary64.ofRatio negative magnitude 1).isFinite = true := by
    intro negative magnitude small
    have modest : Binary64.IsModest 64 (.ofRatio negative magnitude 1) :=
      Binary64.isModest_ofRatio negative (by rwa [Nat.one_mul])
    exact modest.isFinite (by decide)
  cases value with
  | ofNat magnitude => exact nearest false magnitude bound
  | negSucc magnitude => exact nearest true (magnitude + 1) bound

end Depot.Json.Numeral
