import Depot.Proofs.Edit.Course
import Depot.Proofs.Screen.Selected
import Depot.Proofs.Service.Requests
import Depot.Screen.Basic

/-!
Contract: deletions as they are shown before the source replies, and as the service does
them.

A client drops the rows that are selected; the service checks the targets that it is sent
and drops the rows of the ids in them. With the stored rows in the cache, a deletion that
gets as far as the source passes every check of the service, and both keep the same rows
in the same order.

Owns: what the three screens show of a deletion, against the lists of the service.
Does not own: which lines are selected (`Depot.Proofs.Screen.Selected`), pack counts
(`Depot.Proofs.Screen.Packs`), requests (`Depot.Proofs.Service.Requests`).
-/

namespace Depot

open Database

/-! ### Selected rows -/

/-- Rows that are selected in a list are rows of it. -/
theorem RowsView.mem_of_mem_selectedRows_flat {ρ : Type} [Row ρ] {rows : List ρ}
    {selection : Selection} {row : ρ}
    (selected : row ∈ (RowsView.flat rows).selectedRows selection) : row ∈ rows :=
  (List.mem_filter.mp selected).1

/-! ### Guesses -/

/-- Dropping the rows of some targets drops the rows that the targets are of. -/
theorem Rows.without_distinctIds {ρ : Type} [Row ρ] (selected rows : List ρ) :
    Rows.without (Service.distinctIds (selected.map Row.target)) rows =
      Rows.without (selected.map Row.id) rows := by
  unfold Rows.without
  refine List.filter_congr ?_
  intro row member
  congr 1
  rw [Bool.eq_iff_iff, List.contains_iff_mem, List.contains_iff_mem, Service.mem_distinctIds]
  simp [Row.target]

/-- The deletion that waits for the source is granted by the service, and the list that is
shown meanwhile is the one that the service has afterwards. -/
def Desk.Foresees {ρ : Type} (shown : Desk ρ) (edit : Edit ρ) (key : ListKey)
    (granted : List Target → Database × Service.Answer Nat)
    (list : Database → Except Fault (List ρ)) : Prop :=
  ∃ targets after count guess,
    edit.ask = .remove targets ∧ granted targets = (after, .ok count) ∧
      shown.cache.get? key = some guess ∧ list after = .ok guess

/-- A deletion of cached rows is foreseen when the service does what it is sent and drops
the rows of the ids from its list. -/
theorem Desk.foresees_remove {ρ : Type} [Row ρ] {desk shown : Desk ρ} {edit : Edit ρ}
    {request : Removal ρ} {rows : List ρ}
    {granted : List Target → Database × Service.Answer Nat}
    {list : Database → Except Fault (List ρ)} {without : List String → Database}
    (writing : desk.remove request = (shown, .writing edit))
    (cached : desk.cache.get? request.key = some rows)
    (grants : ∀ targets : List Target, targets ≠ [] →
      (∀ target ∈ targets, ∃ row ∈ request.rows, target = Row.target row) →
      granted targets =
        (without (Service.distinctIds targets), .ok (Service.distinctIds targets).length))
    (lists : ∀ ids, list (without ids) = .ok (Rows.without ids rows)) :
    shown.Foresees edit request.key granted list := by
  obtain ⟨-, some, -, asks, shows⟩ := desk.remove_writing writing
  have targets : request.rows.map Row.target ≠ [] := by
    intro none
    exact some (List.map_eq_nil_iff.mp none)
  have named : ∀ target ∈ request.rows.map Row.target, ∃ row ∈ request.rows,
      target = Row.target row := by
    intro target member
    obtain ⟨row, inside, rfl⟩ := List.mem_map.mp member
    exact ⟨row, inside, rfl⟩
  refine ⟨_, _, _, _, asks, grants _ targets named, ?_, lists _⟩
  rw [shows, cached, Option.map_some, Rows.without_distinctIds]

/-! ### Lines -/

/-- The screen shows a stored shipment whose stored lines are cached. -/
structure ShipmentScreen.Mirrors (screen : ShipmentScreen) (cache : Cache Line)
    (database : Database) (lines : List Line) : Prop where
  header : database.shipmentById screen.header.id = .ok (some screen.header)
  stored : database.linesOf screen.header.id = .ok lines
  cached : cache.get? screen.key = some lines

namespace ShipmentScreen

variable {screen : ShipmentScreen} {database : Database} {desk shown : Desk Line}
  {lines : List Line} {edit : Edit Line}

theorem Mirrors.cached_eq (mirrors : screen.Mirrors desk.cache database lines) :
    screen.cached desk.cache = lines := by
  rw [ShipmentScreen.cached, mirrors.cached, Option.getD_some]

/-- Lines of a shipment that is shown and not locked may be edited. -/
theorem Mirrors.editableLine (sound : database.Sound)
    (mirrors : screen.Mirrors desk.cache database lines)
    (unlocked : screen.header.linesLocked = false) {line : Line} (member : line ∈ lines) :
    Service.editableLine database line.id line.shipmentId = .ok (line, screen.header) := by
  obtain ⟨found, belongs⟩ := sound.lineById_of_mem mirrors.stored member
  refine (Service.editableLine_eq_ok ..).mpr ⟨found, rfl, ?_, unlocked⟩
  rw [belongs]
  exact mirrors.header

/-- A deletion of lines is shown as the service does it. -/
theorem foresees_remove (sound : database.Sound)
    (mirrors : screen.Mirrors desk.cache database lines)
    (writing : desk.remove (screen.removal desk.cache) = (shown, .writing edit)) :
    shown.Foresees edit screen.key (Service.deleteLines database)
      fun after => after.linesOf screen.header.id := by
  obtain ⟨enabled, -, eligible, -, -⟩ := desk.remove_writing writing
  refine Desk.foresees_remove writing mirrors.cached ?_
    (sound.linesOf_withoutLines mirrors.stored)
  intro targets some named
  refine Service.deleteLines_eq_ok sound some ?_
  intro target member
  obtain ⟨line, selected, rfl⟩ := named target member
  have inside : line ∈ lines := by
    rw [← mirrors.cached_eq]
    exact screen.mem_of_mem_selectedRows selected
  refine (Service.checkLineDeletion_eq_ok ..).mpr ⟨line.shipmentId, line, screen.header, rfl,
    mirrors.editableLine sound enabled inside, ?_⟩
  simpa [ShipmentScreen.removal, ShipmentScreen.eligibility, Eligibility.linesOf]
    using eligible line selected

end ShipmentScreen

/-! ### Shipments and requisitions -/

namespace ListScreen

variable {database : Database} {selection : Selection}

theorem mem_of_mem_rows {ρ : Type} [Row ρ] {screen : ListScreen ρ} {cache : Cache ρ}
    {rows : List ρ} (cached : cache.get? screen.key = some rows) {row : ρ}
    (selected : row ∈ (screen.removal cache).rows) : row ∈ rows := by
  have inside := RowsView.mem_of_mem_selectedRows_flat selected
  rwa [cached, Option.getD_some] at inside

/-- A deletion of shipments is shown as the service does it. -/
theorem foresees_remove_shipments (sound : database.Sound) {direction : Direction}
    {desk shown : Desk Shipment} {edit : Edit Shipment} {rows : List Shipment}
    (stored : database.listShipments direction = .ok rows)
    (cached : desk.cache.get? (.shipments direction) = some rows)
    (writing : desk.remove ({ shipments direction with selection }.removal desk.cache) =
      (shown, .writing edit)) :
    shown.Foresees edit (.shipments direction) (Service.deleteShipments database)
      fun after => after.listShipments direction := by
  obtain ⟨-, -, eligible, -, -⟩ := desk.remove_writing writing
  refine Desk.foresees_remove writing cached ?_ (sound.listShipments_withoutShipments stored)
  intro targets some named
  refine Service.deleteShipments_eq_ok sound some ?_
  intro target member
  obtain ⟨shipment, selected, rfl⟩ := named target member
  have inside : shipment ∈ rows := mem_of_mem_rows cached selected
  refine (Service.checkShipmentDeletion_eq_ok ..).mpr ⟨shipment, ?_, ?_⟩
  · exact sound.shipmentById_of_mem stored inside
  · exact of_decide_eq_true (eligible shipment selected)

/-- A deletion of requisitions is shown as the service does it. -/
theorem foresees_remove_requisitions (sound : database.Sound)
    {desk shown : Desk Requisition} {edit : Edit Requisition} {rows : List Requisition}
    (stored : database.listRequisitions = .ok rows)
    (cached : desk.cache.get? .requisitions = some rows)
    (writing : desk.remove ({ requisitions with selection }.removal desk.cache) =
      (shown, .writing edit)) :
    shown.Foresees edit .requisitions (Service.deleteRequisitions database)
      fun after => after.listRequisitions := by
  obtain ⟨-, -, eligible, -, -⟩ := desk.remove_writing writing
  refine Desk.foresees_remove writing cached ?_ (sound.listRequisitions_withoutRequisitions stored)
  intro targets some named
  refine Service.deleteRequisitions_eq_ok sound some ?_
  intro target member
  obtain ⟨requisition, selected, rfl⟩ := named target member
  have inside : requisition ∈ rows := mem_of_mem_rows cached selected
  refine (Service.checkRequisitionDeletion_eq_ok ..).mpr ⟨requisition, ?_, ?_⟩
  · exact sound.requisitionById_of_mem stored inside
  · exact of_decide_eq_true (eligible requisition selected)

end ListScreen

end Depot
