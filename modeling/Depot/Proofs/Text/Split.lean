import Depot.Proofs.Text.Digits
import Depot.Text.Percent
import Mathlib.Algebra.Group.Int.Defs
import Mathlib.Data.List.TakeWhile

/-!
Contract: texts are cut where their separators are.

An address is put together from names and numbers in which no separator occurs, so that it is
taken apart into the same names and numbers. Percent signs do not occur in them either, and a
number is read back with its sign.

Owns: cuts at separators, texts without percent signs, and integers read back.
Does not own: which addresses there are (`Depot.Proofs.Http.Travel`).
-/

namespace Depot.Text

variable {separator : Char} {name rest : List Char}

/-! ### Separators -/

theorem before_of_notMem (none : separator ∉ name) : before separator name = name := by
  apply List.takeWhile_eq_self_iff.mpr
  intro character inside
  exact bne_iff_ne.mpr (ne_of_mem_of_not_mem inside none)

theorem cutAt?_of_notMem (none : separator ∉ name) : cutAt? separator name = .none := by
  induction name with
  | nil => rfl
  | cons character name inductionHypothesis =>
      have differs := List.ne_of_not_mem_cons none
      replace none := List.not_mem_of_not_mem_cons none
      rw [cutAt?, if_neg (Ne.symm differs), inductionHypothesis none, Option.map_none]

theorem cutAt?_append (none : separator ∉ name) :
    cutAt? separator (name ++ separator :: rest) = some (name, rest) := by
  induction name with
  | nil => exact if_pos rfl
  | cons character name inductionHypothesis =>
      have differs := List.ne_of_not_mem_cons none
      replace none := List.not_mem_of_not_mem_cons none
      rw [List.cons_append, cutAt?, if_neg (Ne.symm differs), inductionHypothesis none,
        Option.map_some]

theorem pieces_of_notMem (none : separator ∉ name) : pieces separator name = [name] := by
  induction name with
  | nil => rfl
  | cons character name inductionHypothesis =>
      have differs := List.ne_of_not_mem_cons none
      replace none := List.not_mem_of_not_mem_cons none
      rw [pieces, if_neg (Ne.symm differs), inductionHypothesis none]

theorem pieces_append (none : separator ∉ name) :
    pieces separator (name ++ separator :: rest) = name :: pieces separator rest := by
  induction name with
  | nil => exact if_pos rfl
  | cons character name inductionHypothesis =>
      have differs := List.ne_of_not_mem_cons none
      replace none := List.not_mem_of_not_mem_cons none
      rw [List.cons_append, pieces, if_neg (Ne.symm differs), inductionHypothesis none]

theorem dropWhile_ne_append (none : separator ∉ name) :
    (name ++ separator :: rest).dropWhile (fun character => character ≠ separator) =
      separator :: rest := by
  rw [List.dropWhile_append_of_pos]
  · simp
  · intro character inside
    exact decide_eq_true (ne_of_mem_of_not_mem inside none)

/-! ### Percent signs -/

theorem percentPieces_of_notMem {text : List Char} (none : '%' ∉ text) :
    percentPieces text = text.map .plain := by
  induction text with
  | nil => rfl
  | cons character text inductionHypothesis =>
      have differs := List.ne_of_not_mem_cons none
      replace none := List.not_mem_of_not_mem_cons none
      rw [percentPieces, inductionHypothesis none, List.map_cons]
      rintro high low others rfl
      exact fun _ => differs rfl

theorem charsOfPieces?_plain (text : List Char) :
    charsOfPieces? (text.map .plain) = some text := by
  induction text with
  | nil => rfl
  | cons character text inductionHypothesis =>
      rw [List.map_cons, charsOfPieces?, inductionHypothesis, Option.map_some]

theorem percentDecoded?_of_notMem {text : List Char} (none : '%' ∉ text) :
    percentDecoded? text = some text := by
  rw [percentDecoded?, percentPieces_of_notMem none, charsOfPieces?_plain]

/-! ### Integers -/

theorem notMem_natText (value : Nat) (noDigit : isDigit separator = false) :
    separator ∉ natText value := by
  intro inside
  rw [forall_mem_natText value separator inside] at noDigit
  cases noDigit

theorem notMem_intText (value : Int) (noDigit : isDigit separator = false)
    (noSign : separator ≠ '-') : separator ∉ intText value := by
  cases value with
  | ofNat value => exact notMem_natText value noDigit
  | negSucc value => exact List.not_mem_cons_of_ne_of_not_mem noSign (notMem_natText _ noDigit)

theorem readNat?_natText {limit value : Nat} (below : value < limit) :
    readNat? limit (natText value) = some value := by
  have digits := forall_mem_natText value
  have all : (natText value).all isDigit = true := List.all_eq_true.mpr digits
  have unsigned : rest? ['+'] (natText value) = none := by
    cases written : natText value with
    | nil => rfl
    | cons first others =>
        rw [written] at digits
        have digit := digits first List.mem_cons_self
        refine if_neg ?_
        rintro rfl
        cases digit
  have filled : (natText value).isEmpty = false :=
    List.isEmpty_eq_false_iff.mpr (natText_ne_nil value)
  simp only [readNat?, unsigned, Option.getD_none, filled, all, Bool.not_true, Bool.or_self,
    Bool.false_eq_true, ↓reduceIte, digitsValue_natText, below]

theorem readInt64?_intText {value : Int} (least : -2 ^ 63 ≤ value) (greatest : value < 2 ^ 63) :
    readInt64? (intText value) = some value := by
  have half : Nat.pow 2 63 = 2 ^ 63 := rfl
  cases value with
  | ofNat value =>
      have digits := forall_mem_natText value
      have below : value < Nat.pow 2 63 := Int.ofNat_lt.mp greatest
      have read := readNat?_natText below
      rw [intText]
      cases written : natText value with
      | nil => exact absurd written (natText_ne_nil value)
      | cons first others =>
          rw [written] at digits read
          unfold readInt64?
          split
          next same =>
            have digit := digits first List.mem_cons_self
            rw [(List.cons.inj same).1] at digit
            cases digit
          next => rw [read]; rfl
  | negSucc value =>
      have all : (natText (value + 1)).all isDigit = true :=
        List.all_eq_true.mpr (forall_mem_natText _)
      have filled : (natText (value + 1)).isEmpty = false :=
        List.isEmpty_eq_false_iff.mpr (natText_ne_nil _)
      have bound : value + 1 ≤ Nat.pow 2 63 := by omega
      simp only [intText, readInt64?, filled, all, Bool.not_true, Bool.or_self,
        Bool.false_eq_true, ↓reduceIte, digitsValue_natText, bound]
      rfl

theorem readInt64?_toInt (number : Int64) : readInt64? (intText number.toInt) = some number.toInt :=
  readInt64?_intText number.le_toInt number.toInt_lt

end Depot.Text
