import Depot.Proofs.View.Grouping
import Depot.Screen.Shipment
import Mathlib.Data.List.Flatten
import Mathlib.Data.List.Perm.Subperm

/-!
Contract: which lines the ticks on the screen of a shipment stand for.

The screen sorts lines before it gathers them, and it may sort the groups once more. None of
that moves a line from one group to another, so the selected rows are the lines whose own key
is ticked: their id, or the id of their item when they are shown by item.

Owns: the selected rows of a screen's view, up to their order.
Does not own: what is done with them (`Depot.Proofs.Screen.Deletion`,
`Depot.Proofs.Screen.Order`).
-/

namespace Depot.ShipmentScreen

/-- The groups that are shown hold the lines that they were made of. -/
theorem groups_perm (screen : ShipmentScreen) (lines : List Line) :
    ((screen.groups lines).flatMap ItemGroup.lines).Perm lines := by
  unfold groups
  simp only
  split
  next => exact ItemGroup.ofLines_perm lines
  next => exact (ItemGroup.sortGroups_perm _ _).trans (ItemGroup.ofLines_perm lines)

/-- There is one group for each item, with the lines that name it. -/
theorem gathered_groups (screen : ShipmentScreen) (lines : List Line) :
    ItemGroup.Gathered lines (screen.groups lines) := by
  have gathered := ItemGroup.gathered_ofLines lines
  unfold groups
  simp only
  split
  next => exact gathered
  next => exact gathered.perm (List.mergeSort_perm _ _).symm

/-- Groups that are picked by their items hold the lines of these items. -/
theorem pickedGroups_perm (screen : ShipmentScreen) (lines : List Line)
    (wanted : String → Bool) :
    (((screen.groups lines).filter fun group => wanted group.item.id).flatMap
        ItemGroup.lines).Perm (lines.filter fun line => wanted line.item.id) := by
  have gathered := screen.gathered_groups lines
  rw [ItemGroup.flatMap_filter_of_uniform fun group member line inside =>
    (gathered.gathers group member).uniform inside]
  exact (screen.groups_perm lines).filter _

/-- However the lines are shown, those are selected whose keys are ticked, each as often as it
is in the list. -/
theorem selectedRows_perm (screen : ShipmentScreen) (lines : List Line)
    (selection : Selection) :
    ((screen.view lines).selectedRows selection).Perm
      (lines.filter fun line => selection.isSelected (screen.tickKey line)) := by
  have sorted : (screen.lines lines).Perm lines := screen.sorting.sortLines_perm lines
  cases grouped : screen.grouped with
  | false =>
      simp only [view, tickKey, grouped, Bool.false_eq_true, ↓reduceIte]
      exact sorted.filter _
  | true =>
      simp only [view, tickKey, grouped, ↓reduceIte, RowsView.selectedRows, List.filter_map,
        List.flatMap_map]
      have picked := screen.pickedGroups_perm (screen.lines lines) selection.isSelected
      exact picked.trans (sorted.filter _)

/-- Whatever is selected, and however the lines are shown, each selected line is another line
of the list. -/
theorem selectedRows_subperm (screen : ShipmentScreen) (lines : List Line)
    (selection : Selection) :
    ((screen.view lines).selectedRows selection).Subperm lines :=
  (screen.selectedRows_perm lines selection).subperm.trans List.filter_sublist.subperm

theorem mem_of_mem_selectedRows (screen : ShipmentScreen) {lines : List Line}
    {selection : Selection} {line : Line}
    (selected : line ∈ (screen.view lines).selectedRows selection) : line ∈ lines :=
  (screen.selectedRows_subperm lines selection).subset selected

end Depot.ShipmentScreen
