import Mathlib.Data.List.Basic
import Mathlib.Data.List.Pairwise
import Mathlib.Order.Lattice

/-!
Contract: sorting by a total preorder, where rows may compare equal.

A list is sorted when it holds the rows that were given, none of them after a greater one, and
of rows that compare equal none has overtaken another. This settles the whole list: its first
row is the first of the least ones. A merge sort makes it, whatever the rows are.

Owns: sorted lists, that there is just one, sorting by ranks, and where a class of least or of
greatest rows is.
Does not own: by what rows are compared (`Depot.Proofs.View.Sorting`).
-/

namespace Depot

variable {α : Type} {order : α → α → Ordering} {given sorted others : List α} {picked : α → Bool}

/-- The given rows in the order of a comparison. -/
structure StablySorted (order : α → α → Ordering) (given sorted : List α) : Prop where
  perm : sorted.Perm given
  ordered : sorted.Pairwise fun left right => order left right ≠ .gt
  /-- Rows that compare equal stand as they were given. -/
  ties : ∀ row, (sorted.filter fun other => order other row = .eq) =
    given.filter fun other => order other row = .eq

/-! ### There is one sorted list -/

/-- Of two lists in order that have the same rows, the first rows compare equal. -/
theorem heads_tie [Std.TransCmp order] {first second : α}
    (same : (first :: sorted).Perm (second :: others))
    (ordered : (first :: sorted).Pairwise fun left right => order left right ≠ .gt)
    (orderedOthers : (second :: others).Pairwise fun left right => order left right ≠ .gt) :
    order second first = .eq := by
  rcases List.mem_cons.mp (same.subset List.mem_cons_self) with equal | later
  · rw [equal]
    exact Std.ReflCmp.compare_self
  · rcases List.mem_cons.mp (same.symm.subset List.mem_cons_self) with equal | laterToo
    · rw [equal]
      exact Std.ReflCmp.compare_self
    · have below := Ordering.isLE_iff_ne_gt.mpr (List.rel_of_pairwise_cons orderedOthers later)
      have above := Ordering.isLE_iff_ne_gt.mpr (List.rel_of_pairwise_cons ordered laterToo)
      exact Std.OrientedCmp.isLE_antisymm below above

/-- Lists in order are the same if their rows of each rank are the same. -/
theorem eq_of_ties [Std.TransCmp order] (same : sorted.Perm others)
    (ordered : sorted.Pairwise fun left right => order left right ≠ .gt)
    (orderedOthers : others.Pairwise fun left right => order left right ≠ .gt)
    (ties : ∀ row, (sorted.filter fun other => order other row = .eq) =
      others.filter fun other => order other row = .eq) : sorted = others := by
  induction sorted generalizing others with
  | nil => exact same.nil_eq
  | cons first sorted inductionHypothesis =>
      cases others with
      | nil => exact absurd same.eq_nil (List.cons_ne_nil _ _)
      | cons second others =>
          have tie := heads_tie same ordered orderedOthers
          have ownTie : order first first = .eq := Std.ReflCmp.compare_self
          have heads := ties first
          rw [List.filter_cons_of_pos (by simp [ownTie]),
            List.filter_cons_of_pos (by simp [tie])] at heads
          obtain rfl : first = second := (List.cons.inj heads).1
          rw [inductionHypothesis same.cons_inv ordered.of_cons orderedOthers.of_cons]
          intro row
          have whole := ties row
          rw [List.filter_cons, List.filter_cons] at whole
          split at whole
          · exact (List.cons.inj whole).2
          · exact whole

theorem StablySorted.unique [Std.TransCmp order] (left : StablySorted order given sorted)
    (right : StablySorted order given others) : sorted = others := by
  apply eq_of_ties (left.perm.trans right.perm.symm) left.ordered right.ordered
  intro row
  rw [left.ties, right.ties]

/-! ### A merge sort makes it -/

theorem not_gt_trans [Std.TransCmp order] (first second third : α)
    (before : decide (order first second ≠ .gt) = true)
    (after : decide (order second third ≠ .gt) = true) :
    decide (order first third ≠ .gt) = true := by
  simp only [decide_eq_true_eq, ne_eq, ← Ordering.isLE_iff_ne_gt] at before after ⊢
  exact Std.TransCmp.isLE_trans before after

theorem not_gt_total [Std.OrientedCmp order] (left right : α) :
    (decide (order left right ≠ .gt) || decide (order right left ≠ .gt)) = true := by
  rw [Bool.or_eq_true, decide_eq_true_eq, decide_eq_true_eq, or_iff_not_imp_left, not_not]
  intro after before
  rw [Std.OrientedCmp.gt_iff_lt, before] at after
  cases after

/-- Where rows compare as their ranks do, they are sorted by rank. -/
theorem pairwise_rank_mergeSort {β : Type} [LinearOrder β] {rank : α → β}
    (byRank : ∀ left right, order left right ≠ .gt ↔ rank left ≤ rank right) (given : List α) :
    (given.mergeSort fun left right => order left right ≠ .gt).Pairwise fun left right =>
      rank left ≤ rank right := by
  have transitive : ∀ first second third, decide (order first second ≠ .gt) = true →
      decide (order second third ≠ .gt) = true → decide (order first third ≠ .gt) = true := by
    intro first second third
    simp only [decide_eq_true_eq, byRank]
    exact le_trans
  have total : ∀ left right,
      (decide (order left right ≠ .gt) || decide (order right left ≠ .gt)) = true := by
    intro left right
    simp only [Bool.or_eq_true, decide_eq_true_eq, byRank]
    exact le_total _ _
  refine (List.pairwise_mergeSort transitive total given).imp ?_
  intro left right inOrder
  exact (byRank left right).mp (of_decide_eq_true inOrder)

/-- Picked rows of which none is after another stay in their order. -/
theorem filter_mergeSort [Std.TransCmp order] (given : List α)
    (alike : ∀ left right, picked left → picked right → order left right ≠ .gt) :
    (given.mergeSort fun left right => order left right ≠ .gt).filter picked =
      given.filter picked := by
  have inOrder : (given.filter picked).Pairwise fun left right =>
      decide (order left right ≠ .gt) = true := by
    rw [List.pairwise_filter]
    apply List.pairwise_of_forall
    intro left right leftPicked rightPicked
    exact decide_eq_true (alike left right leftPicked rightPicked)
  have kept := List.sublist_mergeSort not_gt_trans not_gt_total inOrder List.filter_sublist
  have keptPicked := kept.filter picked
  simp only [List.filter_filter, Bool.and_self] at keptPicked
  have asMany := ((List.mergeSort_perm given fun left right => order left right ≠ .gt).filter
    picked).length_eq
  exact (keptPicked.eq_of_length asMany.symm).symm

theorem stablySorted_mergeSort [Std.TransCmp order] (given : List α) :
    StablySorted order given (given.mergeSort fun left right => order left right ≠ .gt) where
  perm := List.mergeSort_perm _ _
  ordered := (List.pairwise_mergeSort not_gt_trans not_gt_total given).imp of_decide_eq_true
  ties := by
    intro row
    apply filter_mergeSort
    intro left right leftTie rightTie
    have same : order left right = .eq :=
      Std.TransCmp.eq_trans (of_decide_eq_true leftTie)
        (Std.OrientedCmp.eq_comm.mp (of_decide_eq_true rightTie))
    rw [same]
    decide

theorem stablySorted_iff [Std.TransCmp order] :
    StablySorted order given sorted ↔
      sorted = given.mergeSort fun left right => order left right ≠ .gt := by
  constructor
  · exact fun stably => stably.unique (stablySorted_mergeSort given)
  · rintro rfl
    exact stablySorted_mergeSort given

/-- A sorted list is sorted already. -/
theorem StablySorted.again (stably : StablySorted order given sorted) :
    StablySorted order sorted sorted where
  perm := .refl _
  ordered := stably.ordered
  ties _ := rfl

/-! ### Least and greatest rows -/

namespace StablySorted

/-- Rows that all compare equal are picked as they were given. -/
theorem filter_eq (stably : StablySorted order given sorted)
    (alike : ∀ left right, picked left → picked right → order left right = .eq) :
    sorted.filter picked = given.filter picked := by
  by_cases some : ∃ row ∈ given, picked row
  · obtain ⟨row, -, rowPicked⟩ := some
    have within : ∀ rows : List α, rows.filter picked =
        (rows.filter fun other => order other row = .eq).filter picked := by
      intro rows
      rw [List.filter_filter]
      apply List.filter_congr
      intro other _
      cases otherPicked : picked other with
      | false => rfl
      | true => simp [alike other row otherPicked rowPicked]
    rw [within sorted, within given, stably.ties]
  · have none : given.filter picked = [] := by
      rw [List.filter_eq_nil_iff]
      exact fun row member rowPicked => some ⟨row, member, rowPicked⟩
    have noneSorted := stably.perm.filter picked
    rw [none] at noneSorted
    rw [none, noneSorted.eq_nil]

/-- A list in which no picked row is after another one has the picked rows at its front. -/
theorem eq_filter_append (ordered : sorted.Pairwise fun left right => picked right → picked left) :
    sorted = sorted.filter picked ++ sorted.filter fun row => !picked row := by
  induction sorted with
  | nil => rfl
  | cons first sorted inductionHypothesis =>
      obtain ⟨before, rest⟩ := List.pairwise_cons.mp ordered
      cases firstPicked : picked first with
      | true =>
          rw [List.filter_cons_of_pos firstPicked, List.filter_cons_of_neg (by simp [firstPicked]),
            List.cons_append, ← inductionHypothesis rest]
      | false =>
          have none : sorted.filter picked = [] := by
            rw [List.filter_eq_nil_iff]
            intro row member rowPicked
            rw [before row member rowPicked] at firstPicked
            cases firstPicked
          rw [none, List.nil_append] at inductionHypothesis
          rw [List.filter_cons_of_neg (by simp [firstPicked]), none, List.nil_append,
            List.filter_cons_of_pos (by simp [firstPicked]), ← inductionHypothesis rest]

/-- Least rows are at the front, as they were given. -/
theorem begins (stably : StablySorted order given sorted)
    (alike : ∀ left right, picked left → picked right → order left right = .eq)
    (least : ∀ left right, ¬picked left → picked right → order left right = .gt) :
    ∃ rest, (∀ row ∈ rest, ¬picked row) ∧ sorted = given.filter picked ++ rest := by
  have front : sorted.Pairwise fun left right => picked right → picked left := by
    refine stably.ordered.imp ?_
    intro left right inOrder rightPicked
    by_contra leftNot
    exact inOrder (least left right leftNot rightPicked)
  refine ⟨sorted.filter fun row => !picked row, ?_, ?_⟩
  · intro row member
    simpa using (List.mem_filter.mp member).2
  · rw [← stably.filter_eq alike]
    exact eq_filter_append front

/-- Greatest rows are at the end, as they were given. -/
theorem ends (stably : StablySorted order given sorted)
    (alike : ∀ left right, picked left → picked right → order left right = .eq)
    (greatest : ∀ left right, picked left → ¬picked right → order left right = .gt) :
    ∃ rest, (∀ row ∈ rest, ¬picked row) ∧ sorted = rest ++ given.filter picked := by
  have front : sorted.Pairwise fun left right => (!picked right) = true → (!picked left) = true := by
    refine stably.ordered.imp ?_
    intro left right inOrder rightNot
    rw [Bool.not_eq_true'] at rightNot ⊢
    by_contra leftPicked
    exact inOrder (greatest left right (by simpa using leftPicked) (by simp [rightNot]))
  refine ⟨sorted.filter fun row => !picked row, ?_, ?_⟩
  · intro row member
    simpa using (List.mem_filter.mp member).2
  · have split := eq_filter_append front
    simp only [Bool.not_not] at split
    rw [← stably.filter_eq alike]
    exact split

end StablySorted

end Depot
