import Depot.Keyed
import Depot.Stock.Row
import Depot.View.Grouping

/-!
Contract: which rows of a list are ticked.

A tick is kept for every row that was ever ticked or flipped, so that a row that
was unticked again is told apart from one that was never touched. A view shows
one entry for a row, or one for a group of rows. A ticked row stands for itself
and a ticked group for all of its rows.

Owns: ticks, the operations on them, what is ticked after each of them, and the
rows that a selection stands for in a view.
Does not own: how rows are grouped (`Depot.View.Grouping`).
-/

namespace Depot

/-- Ticks under row ids or item ids. -/
structure Selection where
  ticks : Keyed String Bool

namespace Selection

def empty : Selection := ⟨Keyed.empty⟩

instance : Inhabited Selection := ⟨empty⟩

/-- Whether the key is ticked, if it was ever touched. -/
def tick? (selection : Selection) (key : String) : Option Bool :=
  selection.ticks.get? key

def isSelected (selection : Selection) (key : String) : Bool :=
  (selection.tick? key).getD false

def toggle (selection : Selection) (key : String) : Selection :=
  ⟨selection.ticks.put key (!selection.isSelected key)⟩

def select (selection : Selection) (key : String) : Selection :=
  ⟨selection.ticks.put key true⟩

/-- Take the key's tick away. A key that was never touched stays so. -/
def deselect (selection : Selection) (key : String) : Selection :=
  match selection.tick? key with
  | none => selection
  | some _ => ⟨selection.ticks.put key false⟩

def selectAll (selection : Selection) (keys : List String) : Selection :=
  keys.foldl select selection

/-- Forget every key that is not among the given ones. -/
def retain (selection : Selection) (present : List String) : Selection :=
  ⟨selection.ticks.keep fun key => present.contains key⟩

/-- The ticked keys in the order of their characters. -/
def selectedKeys (selection : Selection) : List String :=
  (selection.ticks.keys.filter selection.isSelected).mergeSort fun left right =>
    decide (left ≤ right)

def selectedCount (selection : Selection) : Nat :=
  selection.ticks.keys.countP selection.isSelected

@[simp]
theorem tick?_empty (key : String) : empty.tick? key = none := rfl

@[simp]
theorem tick?_toggle (selection : Selection) (other key : String) :
    (selection.toggle other).tick? key =
      if key = other then some (!selection.isSelected key) else selection.tick? key := by
  by_cases same : key = other
  · simp [tick?, toggle, same]
  · simp [tick?, toggle, same]

@[simp]
theorem tick?_select (selection : Selection) (other key : String) :
    (selection.select other).tick? key =
      if key = other then some true else selection.tick? key := by
  simp [tick?, select]

@[simp]
theorem tick?_deselect (selection : Selection) (other key : String) :
    (selection.deselect other).tick? key =
      if key = other then (selection.tick? key).map fun _ => false
      else selection.tick? key := by
  unfold deselect
  cases known : selection.tick? other with
  | none =>
      by_cases same : key = other
      · simp [same, known]
      · simp [same]
  | some ticked =>
      by_cases same : key = other
      · subst same
        rw [if_pos rfl, known]
        simp [tick?]
      · simp [tick?, same]

@[simp]
theorem tick?_selectAll (selection : Selection) (keys : List String) (key : String) :
    (selection.selectAll keys).tick? key =
      if key ∈ keys then some true else selection.tick? key := by
  induction keys generalizing selection with
  | nil => simp [selectAll]
  | cons first keys inductionHypothesis =>
      change ((selection.select first).selectAll keys).tick? key = _
      rw [inductionHypothesis, tick?_select]
      by_cases later : key ∈ keys
      · simp [later]
      · simp [later]

@[simp]
theorem tick?_retain (selection : Selection) (present : List String) (key : String) :
    (selection.retain present).tick? key =
      if key ∈ present then selection.tick? key else none := by
  simp [tick?, retain]

end Selection

/-! ### Selected rows -/

/-- Rows shown under one key. -/
structure RowGroup (ρ : Type) where
  key : String
  rows : List ρ

/-- The group of rows that an item's lines are. -/
def ItemGroup.rowGroup (group : ItemGroup) : RowGroup Line :=
  ⟨group.item.id, group.lines⟩

/-- What is shown: rows, or groups of rows. -/
inductive RowsView (ρ : Type) where
  | flat (rows : List ρ)
  | grouped (groups : List (RowGroup ρ))

variable {ρ : Type} [Row ρ]

/-- The rows that the selection stands for, in the order of the view. -/
def RowsView.selectedRows (selection : Selection) : RowsView ρ → List ρ
  | .flat rows => rows.filter fun row => selection.isSelected (Row.id row)
  | .grouped groups =>
      (groups.filter fun group => selection.isSelected group.key).flatMap RowGroup.rows

end Depot
