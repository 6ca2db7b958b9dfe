import Depot.Edit.Basic

/-!
Contract: what the screens of a client have in common, and the lists of shipments
and of requisitions.

A screen shows the list under one key, holds a selection, and can delete what is
selected. After a deletion was committed it gives up ticks whose rows are gone.

Owns: the class of screens, and the two list screens.
Does not own: the lines of a shipment (`Depot.Screen.Shipment`).
-/

namespace Depot

/-- Types of screens that show rows. -/
class Screen (σ : Type) (ρ : outParam Type) where
  /-- The key of the list that is shown. -/
  key : σ → ListKey
  /-- What is ticked. -/
  selection : σ → Selection
  /-- The screen with other ticks. -/
  withSelection : σ → Selection → σ
  /-- The deletion of what is selected, as the cache stands. -/
  removal : σ → Cache ρ → Removal ρ
  /-- The ticks after a deletion was committed, as the cache stands then. -/
  keptSelection : σ → Cache ρ → Selection

namespace Screen

variable {σ ρ : Type} [Screen σ ρ]

/-- The screen after a deletion. Only a committed one touches the ticks. -/
def afterRemoval (screen : σ) (cache : Cache ρ) : Outcome → σ
  | .committed _ => withSelection screen (keptSelection screen cache)
  | .skipped _ | .rejected _ | .rolledBack => screen

end Screen

/-! ### Lists -/

/-- A screen that shows whole records. -/
structure ListScreen (ρ : Type) where
  key : ListKey
  eligibility : Eligibility ρ
  subject : Subject
  selection : Selection

namespace ListScreen

def shipments (direction : Direction) : ListScreen Shipment :=
  ⟨.shipments direction, .newShipments, .shipments, .empty⟩

def requisitions : ListScreen Requisition :=
  ⟨.requisitions, .draftRequisitions, .requisitions, .empty⟩

def removal {ρ : Type} (screen : ListScreen ρ) (cache : Cache ρ) : Removal ρ where
  key := screen.key
  view := .flat ((cache.get? screen.key).getD [])
  selection := screen.selection
  disabled := false
  eligibility := screen.eligibility
  subject := screen.subject

instance {ρ : Type} : Screen (ListScreen ρ) ρ where
  key := ListScreen.key
  selection := ListScreen.selection
  withSelection screen selection := { screen with selection }
  removal := removal
  keptSelection _ _ := .empty

end ListScreen

end Depot
