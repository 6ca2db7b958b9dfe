import Mathlib.Data.String.Basic

/-!
Contract: texts in the order of their bytes.

Texts compare by their characters. Written out in bytes they are in the same order: of two
characters the later one has the greater bytes where these first differ, and no character's
bytes begin another's.

Owns: the bytes of a text, and that they are in the order of the text.
Does not own: what is ordered by texts (`Depot.Proofs.View.Partition`).
-/

namespace Depot.Text

def bytes (text : String) : List UInt8 :=
  text.toUTF8.data.toList

theorem bytes_eq (text : String) : bytes text = text.toList.flatMap String.utf8EncodeChar := by
  have encoded : text.toByteArray = (text.toList.flatMap String.utf8EncodeChar).toByteArray := by
    conv_lhs => rw [← String.ofList_toList (s := text)]
    rfl
  simp [bytes, encoded]

/-- The last bytes of a character, of which each holds six bits. -/
def continued (value : Nat) : Nat → List UInt8
  | 0 => []
  | count + 1 => .ofNat (value / 64 ^ count % 64 + 128) :: continued value count

theorem cons_lt_cons_of {left right : Nat} {lefts rights : List UInt8} (small : right < 256)
    (less : left < right ∨ left = right ∧ lefts < rights) :
    UInt8.ofNat left :: lefts < UInt8.ofNat right :: rights := by
  rw [List.cons_lt_cons_iff]
  apply less.imp
  · intro less
    rw [UInt8.lt_iff_toNat_lt, UInt8.toNat_ofNat', UInt8.toNat_ofNat']
    omega
  · intro equal
    exact ⟨congrArg UInt8.ofNat equal.1, equal.2⟩

theorem continued_lt {left right : Nat} (count : Nat) (lefts rights : List UInt8)
    (less : left % 64 ^ count < right % 64 ^ count) :
    continued left count ++ lefts < continued right count ++ rights := by
  induction count with
  | zero => omega
  | succ count inductionHypothesis =>
      rw [pow_succ, Nat.mod_mul, Nat.mod_mul] at less
      apply cons_lt_cons_of (by omega)
      by_cases same : left / 64 ^ count % 64 = right / 64 ^ count % 64
      · rw [same] at less
        exact .inr ⟨by rw [same], inductionHypothesis (by omega)⟩
      · left
        have rightSmall : right % 64 ^ count < 64 ^ count := Nat.mod_lt _ (Nat.pow_pos (by decide))
        by_contra notLess
        have greater : right / 64 ^ count % 64 + 1 ≤ left / 64 ^ count % 64 := by omega
        have scaled := Nat.mul_le_mul_left (64 ^ count) greater
        rw [Nat.mul_add, Nat.mul_one] at scaled
        omega

/-- The bytes of a character: the first one tells how many follow. -/
theorem exists_first (character : Char) :
    ∃ first count, String.utf8EncodeChar character =
        .ofNat first :: continued character.val.toNat count ∧
      (count = 0 ∧ first = character.val.toNat ∧ character.val.toNat < 128 ∨
        count = 1 ∧ first = character.val.toNat / 64 + 192 ∧
          128 ≤ character.val.toNat ∧ character.val.toNat < 2048 ∨
        count = 2 ∧ first = character.val.toNat / 4096 + 224 ∧
          2048 ≤ character.val.toNat ∧ character.val.toNat < 65536 ∨
        count = 3 ∧ first = character.val.toNat / 262144 + 240 ∧
          65536 ≤ character.val.toNat ∧ character.val.toNat < 2097152) := by
  have small : character.val.toNat < 1114112 := by
    have valid := character.valid
    unfold UInt32.isValidChar Nat.isValidChar at valid
    omega
  simp only [String.utf8EncodeChar]
  split
  · exact ⟨_, 0, rfl, by omega⟩
  · split
    · refine ⟨character.val.toNat / 64 % 32 + 192, 1, ?_, by omega⟩
      simp [continued]
    · split
      · refine ⟨character.val.toNat / 4096 % 16 + 224, 2, ?_, by omega⟩
        simp [continued]
      · refine ⟨character.val.toNat / 262144 % 8 + 240, 3, ?_, by omega⟩
        simp [continued]

/-- Of two characters the later one has the greater bytes, whatever follows. -/
theorem encode_lt_encode {earlier later : Char} (less : earlier < later)
    (lefts rights : List UInt8) :
    String.utf8EncodeChar earlier ++ lefts < String.utf8EncodeChar later ++ rights := by
  have less : earlier.val.toNat < later.val.toNat := less
  obtain ⟨left, leftCount, leftBytes, leftSize⟩ := exists_first earlier
  obtain ⟨right, rightCount, rightBytes, rightSize⟩ := exists_first later
  rw [leftBytes, rightBytes]
  apply cons_lt_cons_of (by omega)
  by_cases same : leftCount = rightCount ∧ left = right
  · right
    refine ⟨same.2, ?_⟩
    rw [same.1]
    apply continued_lt
    rcases rightSize with ⟨rfl, sizes⟩ | ⟨rfl, sizes⟩ | ⟨rfl, sizes⟩ | ⟨rfl, sizes⟩ <;> omega
  · left
    omega

theorem flatMap_lt_flatMap {left right : List Char} (less : left < right) :
    left.flatMap String.utf8EncodeChar < right.flatMap String.utf8EncodeChar := by
  induction left generalizing right with
  | nil =>
      cases right with
      | nil => exact absurd less (List.not_lt_nil [])
      | cons second right =>
          obtain ⟨first, count, encoded, -⟩ := exists_first second
          rw [List.flatMap_cons, encoded]
          exact List.nil_lt_cons _ _
  | cons first left inductionHypothesis =>
      cases right with
      | nil => exact absurd less (List.not_lt_nil _)
      | cons second right =>
          rw [List.flatMap_cons, List.flatMap_cons]
          rcases List.cons_lt_cons_iff.mp less with earlier | ⟨rfl, rest⟩
          · exact encode_lt_encode earlier _ _
          · exact List.append_left_lt (inductionHypothesis rest)

/-- Texts are in the order of their bytes. -/
theorem bytes_lt_bytes_iff (left right : String) : bytes left < bytes right ↔ left < right := by
  have ordered : ∀ {first second : String}, first < second → bytes first < bytes second := by
    intro first second less
    rw [bytes_eq, bytes_eq]
    exact flatMap_lt_flatMap less
  refine ⟨?_, ordered⟩
  intro less
  rcases lt_trichotomy left right with before | same | after
  · exact before
  · exact absurd (same ▸ less) (List.lt_irrefl _)
  · exact absurd (ordered after) (List.lt_asymm less)

end Depot.Text

