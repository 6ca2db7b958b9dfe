import Depot.Proofs.Decimal.Order
import Depot.Proofs.Text.Bytes
import Depot.Proofs.View.Stable
import Depot.View.Grouping
import Mathlib.Data.String.Basic

/-!
Contract: lines and groups are sorted by total preorders, whatever the property.

Of two lines one precedes the other by a property if it has the smaller value of it, and a line
without the property precedes every line with it. This compares any two lines, numbers of packs
of every kind included, and so does its reverse, so that sorting is well defined. Groups follow
their first lines in both directions, and empty groups are after all others.

Owns: what precedes what by a property, and where sorting puts lines and groups.
Does not own: stable sorting by any comparison (`Depot.Proofs.View.Stable`).
-/

namespace Depot

open Decimal Calendar

/-! ### What precedes what -/

/-- A missing value precedes every value that is there. -/
def PrecedesMissingFirst {α : Type} (precedes : α → α → Prop) : Option α → Option α → Prop
  | none, some _ => True
  | some left, some right => precedes left right
  | _, none => False

/-- Days by year, then by month, then by day. -/
def Calendar.Date.Precedes (left right : Date) : Prop :=
  left.year < right.year ∨
    left.year = right.year ∧
      (left.month < right.month ∨ left.month = right.month ∧ left.day < right.day)

namespace SortKey

/-- The left line has the smaller value of the property, texts by their bytes. -/
def Precedes (key : SortKey) (left right : Line) : Prop :=
  match key with
  | .itemName => Text.bytes left.item.name < Text.bytes right.item.name
  | .itemCode => Text.bytes left.item.code < Text.bytes right.item.code
  | .batch =>
      PrecedesMissingFirst (fun left right => Text.bytes left < Text.bytes right)
        left.content.batch? right.content.batch?
  | .expiry =>
      PrecedesMissingFirst Date.Precedes left.content.expiry? right.content.expiry?
  | .packSize =>
      PrecedesMissingFirst (fun left right => left.toNat < right.toNat)
        left.content.packSize? right.content.packSize?
  | .packs =>
      PrecedesMissingFirst Binary64.Precedes left.content.packs? right.content.packs?

/-- Whether a line lacks the property. -/
def lacks (key : SortKey) (line : Line) : Bool :=
  match key with
  | .itemName | .itemCode => false
  | .batch => line.content.batch?.isNone
  | .expiry => line.content.expiry?.isNone
  | .packSize => line.content.packSize?.isNone
  | .packs => line.content.packs?.isNone

end SortKey

/-! ### Comparisons of values -/

theorem compareMissingFirst_eq_lt {α : Type} {compareValues : α → α → Ordering}
    {precedes : α → α → Prop}
    (values : ∀ left right, compareValues left right = .lt ↔ precedes left right)
    (left right : Option α) :
    compareMissingFirst compareValues left right = .lt ↔
      PrecedesMissingFirst precedes left right := by
  cases left <;> cases right <;> simp [compareMissingFirst, PrecedesMissingFirst, values]

theorem compare_eq_lt_iff_bytes (left right : String) :
    compare left right = .lt ↔ Text.bytes left < Text.bytes right := by
  rw [compare_lt_iff_lt, Text.bytes_lt_bytes_iff]

theorem Calendar.Date.order_eq_lt (left right : Date) :
    left.order right = .lt ↔ left.Precedes right := by
  simp only [order, Precedes, Ordering.then_eq_lt, compare_lt_iff_lt, compare_eq_iff_eq]

instance : Std.TransCmp Date.order :=
  inferInstanceAs (Std.TransCmp
    (compareLex (compareOn Date.year) (compareLex (compareOn Date.month) (compareOn Date.day))))

section

variable {α β : Type} (order : β → β → Ordering)

instance [Std.OrientedCmp order] : Std.OrientedCmp (compareMissingFirst order) where
  eq_swap := by
    rintro (_ | left) (_ | right)
    · rfl
    · rfl
    · rfl
    · show order left right = (order right left).swap
      exact Std.OrientedCmp.eq_swap

instance [Std.TransCmp order] : Std.TransCmp (compareMissingFirst order) where
  isLE_trans := by
    rintro (_ | first) (_ | second) (_ | third) before after
    · rfl
    · rfl
    · rfl
    · rfl
    · cases before
    · cases before
    · cases after
    · have first_second : (order first second).isLE := before
      have second_third : (order second third).isLE := after
      show (order first third).isLE
      exact Std.TransCmp.isLE_trans first_second second_third

/-- Things are compared by what they have. -/
theorem transCmp_by [Std.TransCmp order] (value : α → β) :
    Std.TransCmp fun left right => order (value left) (value right) where
  eq_swap := Std.OrientedCmp.eq_swap
  isLE_trans := Std.TransCmp.isLE_trans

end

/-! ### Comparisons of lines -/

namespace SortKey

theorem compareLines_eq_lt (key : SortKey) (left right : Line) :
    key.compareLines left right = .lt ↔ key.Precedes left right := by
  cases key with
  | itemName => exact compare_eq_lt_iff_bytes _ _
  | itemCode => exact compare_eq_lt_iff_bytes _ _
  | batch => exact compareMissingFirst_eq_lt compare_eq_lt_iff_bytes _ _
  | expiry => exact compareMissingFirst_eq_lt Date.order_eq_lt _ _
  | packSize => exact compareMissingFirst_eq_lt (fun _ _ => Std.compare_eq_lt) _ _
  | packs => exact compareMissingFirst_eq_lt Binary64.totalCompare_eq_lt _ _

instance (key : SortKey) : Std.TransCmp key.compareLines := by
  cases key with
  | itemName => exact transCmp_by compare fun line : Line => line.item.name
  | itemCode => exact transCmp_by compare fun line : Line => line.item.code
  | batch => exact transCmp_by (compareMissingFirst compare) fun line : Line => line.content.batch?
  | expiry =>
      exact transCmp_by (compareMissingFirst Date.order) fun line : Line => line.content.expiry?
  | packSize =>
      exact transCmp_by (compareMissingFirst compare) fun line : Line => line.content.packSize?
  | packs =>
      exact transCmp_by (compareMissingFirst Binary64.totalCompare) fun line : Line =>
        line.content.packs?

theorem compareMissingFirst_of_isNone {α : Type} (order : α → α → Ordering)
    {left right : Option α} (missing : left.isNone) :
    compareMissingFirst order left right = if right.isNone then .eq else .lt := by
  obtain rfl := Option.isNone_iff_eq_none.mp missing
  cases right <;> rfl

/-- A line without the property precedes those that have it, and compares equal to the others
without it. -/
theorem compareLines_of_lacks {key : SortKey} {left right : Line} (missing : key.lacks left) :
    key.compareLines left right = if key.lacks right then .eq else .lt := by
  cases key with
  | itemName => cases missing
  | itemCode => cases missing
  | batch => exact compareMissingFirst_of_isNone _ missing
  | expiry => exact compareMissingFirst_of_isNone _ missing
  | packSize => exact compareMissingFirst_of_isNone _ missing
  | packs => exact compareMissingFirst_of_isNone _ missing

end SortKey

namespace Sorting

instance (sorting : Sorting) : Std.TransCmp sorting.compareLines := by
  obtain ⟨key, descending⟩ := sorting
  cases descending with
  | false => exact inferInstanceAs (Std.TransCmp key.compareLines)
  | true =>
      have turned : Std.TransCmp fun left right => key.compareLines right left := inferInstance
      have same : (Sorting.mk key true).compareLines = fun left right =>
          key.compareLines right left := by
        funext left right
        exact Std.OrientedCmp.eq_swap.symm
      rw [same]
      exact turned

theorem compareLines_eq_lt (sorting : Sorting) (left right : Line) :
    sorting.compareLines left right = .lt ↔
      if sorting.descending then sorting.key.Precedes right left
      else sorting.key.Precedes left right := by
  rw [compareLines]
  cases sorting.descending with
  | false => exact sorting.key.compareLines_eq_lt left right
  | true =>
      rw [if_pos rfl, if_pos rfl, Ordering.swap_eq_lt, Std.OrientedCmp.gt_iff_lt]
      exact sorting.key.compareLines_eq_lt right left

end Sorting

/-! ### Comparisons of groups -/

namespace ItemGroup

variable (sorting : Sorting)

instance : Std.OrientedCmp (compareGroups sorting) where
  eq_swap := by
    rintro ⟨_, _ | ⟨first, _⟩⟩ ⟨_, _ | ⟨second, _⟩⟩
    · rfl
    · rfl
    · rfl
    · show sorting.compareLines first second = (sorting.compareLines second first).swap
      exact Std.OrientedCmp.eq_swap

instance : Std.TransCmp (compareGroups sorting) where
  isLE_trans := by
    rintro ⟨_, _ | ⟨first, _⟩⟩ ⟨_, _ | ⟨second, _⟩⟩ ⟨_, _ | ⟨third, _⟩⟩ before after
    · rfl
    · cases after
    · rfl
    · cases before
    · rfl
    · cases after
    · rfl
    · have first_second : (sorting.compareLines first second).isLE := before
      have second_third : (sorting.compareLines second third).isLE := after
      show (sorting.compareLines first third).isLE
      exact Std.TransCmp.isLE_trans first_second second_third

/-- Groups compare as their first lines do, and all that have lines precede the empty ones. -/
theorem compareGroups_eq_lt (left right : ItemGroup) :
    compareGroups sorting left right = .lt ↔ ∃ first, left.lines.head? = some first ∧
      ∀ second, right.lines.head? = some second → sorting.compareLines first second = .lt := by
  obtain ⟨_, _ | ⟨first, _⟩⟩ := left <;> obtain ⟨_, _ | ⟨second, _⟩⟩ := right <;>
    simp [compareGroups]

theorem compareGroups_of_nil {left right : ItemGroup} (none : left.lines = []) :
    compareGroups sorting left right = if right.lines = [] then .eq else .gt := by
  obtain ⟨_, lines⟩ := left
  subst none
  obtain ⟨_, _ | ⟨second, _⟩⟩ := right <;> rfl

end ItemGroup

/-! ### Sorted lines and groups -/

namespace Sorting

variable (sorting : Sorting)

theorem sortLines_iff {lines sorted : List Line} :
    sorted = sorting.sortLines lines ↔ StablySorted sorting.compareLines lines sorted :=
  stablySorted_iff.symm

theorem sortGroups_iff {groups sorted : List ItemGroup} :
    sorted = ItemGroup.sortGroups sorting groups ↔
      StablySorted (ItemGroup.compareGroups sorting) groups sorted :=
  stablySorted_iff.symm

theorem compareLines_eq_eq (left right : Line) :
    sorting.compareLines left right = .eq ↔ sorting.key.compareLines left right = .eq := by
  rw [compareLines]
  cases sorting.descending with
  | false => exact Iff.rfl
  | true => exact Ordering.swap_eq_eq

/-- Lines without the property come first in an ascending order and last in a descending one. -/
theorem sortLines_lacking (lines : List Line) :
    ∃ having, (∀ line ∈ having, ¬sorting.key.lacks line) ∧
      sorting.sortLines lines =
        if sorting.descending then having ++ lines.filter sorting.key.lacks
        else lines.filter sorting.key.lacks ++ having := by
  have stably := sorting.sortLines_iff.mp (Eq.refl (sorting.sortLines lines))
  have alike : ∀ left right, sorting.key.lacks left → sorting.key.lacks right →
      sorting.compareLines left right = .eq := by
    intro left right leftLacks rightLacks
    rw [compareLines_eq_eq, SortKey.compareLines_of_lacks leftLacks, if_pos rightLacks]
  -- A line without the property is the smaller one of any two that differ in having it.
  have smaller : ∀ left right, sorting.key.lacks left → ¬sorting.key.lacks right →
      sorting.key.compareLines left right = .lt := by
    intro left right leftLacks rightHas
    rw [SortKey.compareLines_of_lacks leftLacks, if_neg rightHas]
  cases direction : sorting.descending with
  | false =>
      apply stably.begins alike
      intro left right leftHas rightLacks
      rw [compareLines, direction, if_neg Bool.false_ne_true, Std.OrientedCmp.gt_iff_lt]
      exact smaller right left rightLacks leftHas
  | true =>
      apply stably.ends alike
      intro left right leftLacks rightHas
      rw [compareLines, direction, if_pos rfl, smaller left right leftLacks rightHas]
      rfl

/-- Empty groups come last in both directions. -/
theorem sortGroups_empty (groups : List ItemGroup) :
    ∃ filled, (∀ group ∈ filled, group.lines ≠ []) ∧
      ItemGroup.sortGroups sorting groups =
        filled ++ groups.filter fun group => group.lines = [] := by
  have stably := sorting.sortGroups_iff.mp (Eq.refl (ItemGroup.sortGroups sorting groups))
  have alike : ∀ left right : ItemGroup, decide (left.lines = []) → decide (right.lines = []) →
      ItemGroup.compareGroups sorting left right = .eq := by
    intro left right leftEmpty rightEmpty
    rw [ItemGroup.compareGroups_of_nil sorting (of_decide_eq_true leftEmpty),
      if_pos (of_decide_eq_true rightEmpty)]
  have greatest : ∀ left right : ItemGroup, decide (left.lines = []) →
      ¬decide (right.lines = []) → ItemGroup.compareGroups sorting left right = .gt := by
    intro left right leftEmpty rightFilled
    rw [ItemGroup.compareGroups_of_nil sorting (of_decide_eq_true leftEmpty), if_neg]
    simpa using rightFilled
  obtain ⟨filled, all, split⟩ := stably.ends alike greatest
  exact ⟨filled, by simpa using all, split⟩

/-- What sorting by a property, in one of the two directions, means for lines and groups. -/
structure IsLawful : Prop where
  /-- Any two lines compare, and what is not greater is not greater than what follows. -/
  lines : Std.TransCmp sorting.compareLines
  groups : Std.TransCmp (ItemGroup.compareGroups sorting)
  byProperty : ∀ left right, sorting.compareLines left right = .lt ↔
    if sorting.descending then sorting.key.Precedes right left
    else sorting.key.Precedes left right
  byFirstLine : ∀ left right, ItemGroup.compareGroups sorting left right = .lt ↔
    ∃ first, left.lines.head? = some first ∧
      ∀ second, right.lines.head? = some second → sorting.compareLines first second = .lt
  sortsLines : ∀ lines sorted, sorted = sorting.sortLines lines ↔
    StablySorted sorting.compareLines lines sorted
  sortsGroups : ∀ groups sorted, sorted = ItemGroup.sortGroups sorting groups ↔
    StablySorted (ItemGroup.compareGroups sorting) groups sorted
  /-- In both directions, lines of one value stand as they were given. -/
  ties : ∀ lines line,
    ((sorting.sortLines lines).filter fun other => sorting.key.compareLines other line = .eq) =
      lines.filter fun other => sorting.key.compareLines other line = .eq
  linesAgain : ∀ lines, sorting.sortLines (sorting.sortLines lines) = sorting.sortLines lines
  groupsAgain : ∀ groups,
    ItemGroup.sortGroups sorting (ItemGroup.sortGroups sorting groups) =
      ItemGroup.sortGroups sorting groups
  lacking : ∀ lines, ∃ having, (∀ line ∈ having, ¬sorting.key.lacks line) ∧
    sorting.sortLines lines =
      if sorting.descending then having ++ lines.filter sorting.key.lacks
      else lines.filter sorting.key.lacks ++ having
  emptyLast : ∀ groups, ∃ filled, (∀ group ∈ filled, group.lines ≠ []) ∧
    ItemGroup.sortGroups sorting groups = filled ++ groups.filter fun group => group.lines = []

theorem isLawful : sorting.IsLawful where
  lines := inferInstance
  groups := inferInstance
  byProperty := sorting.compareLines_eq_lt
  byFirstLine := ItemGroup.compareGroups_eq_lt sorting
  sortsLines _ _ := sorting.sortLines_iff
  sortsGroups _ _ := sorting.sortGroups_iff
  ties := by
    intro lines line
    have stably := sorting.sortLines_iff.mp (Eq.refl (sorting.sortLines lines))
    simpa only [compareLines_eq_eq] using stably.ties line
  linesAgain := by
    intro lines
    have stably := sorting.sortLines_iff.mp (Eq.refl (sorting.sortLines lines))
    exact (sorting.sortLines_iff.mpr stably.again).symm
  groupsAgain := by
    intro groups
    have stably := sorting.sortGroups_iff.mp (Eq.refl (ItemGroup.sortGroups sorting groups))
    exact (sorting.sortGroups_iff.mpr stably.again).symm
  lacking := sorting.sortLines_lacking
  emptyLast := sorting.sortGroups_empty

end Sorting

end Depot
