import Depot.Proofs.Screen.Packs
import Mathlib.Data.List.Permutation

/-!
Contract: what a screen shows before the source has replied is what the service does.

The screens of this module show what a database holds that only writes have filled, and
nobody else changes it meanwhile. Then no write that leaves a screen is refused, and the
list that is shown in the meantime is the one that the service lists afterwards.

Owns: the statement about all three screens at once.
Does not own: the single screens (`Depot.Proofs.Screen.Deletion`,
`Depot.Proofs.Screen.Packs`).
-/

namespace Depot

open Database Decimal

/-- Screens that show what the database holds guess right, for deletions of lines, of
shipments and of requisitions and for new pack counts. -/
structure Database.Foreseen (database : Database) : Prop where
  lines : ∀ (screen : ShipmentScreen) (desk shown : Desk Line) (edit : Edit Line)
    (rows : List Line),
    screen.Mirrors desk.cache database rows →
    desk.remove (screen.removal desk.cache) = (shown, .writing edit) →
    shown.Foresees edit screen.key (Service.deleteLines database)
      fun after => after.linesOf screen.header.id
  packs : ∀ (screen : ShipmentScreen) (desk shown : Desk Line) (edit : Edit Line)
    (rows : List Line) (changes : List (String × Binary64)),
    screen.Mirrors desk.cache database rows →
    (∀ change ∈ changes, change.2.isFinite = true ∧ change.2.isBelowZero = false) →
    desk.update (screen.packUpdate changes desk.cache) = (shown, .writing edit) →
    ∃ changed updates after count guess stored,
      edit.ask = .update changed ∧
        (Http.Inquiry.updateLines changed).body = some (Wire.write (UpdateRequest.mk updates)) ∧
        Service.updateLines database updates = (after, .ok count) ∧
        shown.cache.get? screen.key = some guess ∧
        after.linesOf screen.header.id = .ok stored ∧ Rows.same guess stored = true
  shipments : ∀ (direction : Direction) (selection : Selection) (desk shown : Desk Shipment)
    (edit : Edit Shipment) (rows : List Shipment),
    database.listShipments direction = .ok rows →
    desk.cache.get? (.shipments direction) = some rows →
    desk.remove ({ ListScreen.shipments direction with selection }.removal desk.cache) =
      (shown, .writing edit) →
    shown.Foresees edit (.shipments direction) (Service.deleteShipments database)
      fun after => after.listShipments direction
  requisitions : ∀ (selection : Selection) (desk shown : Desk Requisition)
    (edit : Edit Requisition) (rows : List Requisition),
    database.listRequisitions = .ok rows →
    desk.cache.get? .requisitions = some rows →
    desk.remove ({ ListScreen.requisitions with selection }.removal desk.cache) =
      (shown, .writing edit) →
    shown.Foresees edit .requisitions (Service.deleteRequisitions database)
      fun after => after.listRequisitions

/-- Whatever was written to a database, screens that show what it holds guess right. -/
theorem Database.foreseen_writeAll (writes : List Write) : (empty.writeAll writes).Foreseen where
  lines _ _ _ _ _ mirrors writing :=
    ShipmentScreen.foresees_remove (sound_writeAll writes) mirrors writing
  packs _ _ _ _ _ _ mirrors counts writing :=
    ShipmentScreen.foresees_update (sound_writeAll writes) mirrors counts writing
  shipments _ _ _ _ _ _ stored cached writing :=
    ListScreen.foresees_remove_shipments (sound_writeAll writes) stored cached writing
  requisitions _ _ _ _ _ stored cached writing :=
    ListScreen.foresees_remove_requisitions (sound_writeAll writes) stored cached writing

/-! ### One line and one requisition -/

namespace FirstDelivery

def writes : List Write :=
  [.createShipment "a" .epoch .inbound "Clinic",
    .addLine "b" "a" ⟨"c", "C", "Gauze"⟩ (.stockIn ⟨none, none, 1, .zero⟩ .zero),
    .createRequisition "d" .epoch "Ward"]

def shipment : Shipment := ⟨"a", 1, .inbound, .new, "Clinic", false, .epoch⟩

def line : Line := ⟨"b", "a", ⟨"c", "C", "Gauze"⟩, .stockIn ⟨none, none, 1, .zero⟩ .zero⟩

def requisition : Requisition := ⟨"d", 1, .draft, "Ward", .epoch⟩

/-- The line is ticked. -/
def screen : ShipmentScreen := ⟨shipment, Selection.empty.select "b", false, .byName⟩

def one : Binary64 := ⟨0x3ff0000000000000⟩

def two : Binary64 := ⟨0x4000000000000000⟩

/-- Two counts for the line, and one for a line that is not there. -/
def counts : List (String × Binary64) := [("b", one), ("e", .zero), ("b", two)]

def shipmentScreen : ListScreen Shipment :=
  { ListScreen.shipments .inbound with selection := Selection.empty.select "a" }

def requisitionScreen : ListScreen Requisition :=
  { ListScreen.requisitions with selection := Selection.empty.select "d" }

def lineDesk : Desk Line := ⟨Cache.empty.set screen.key [line], []⟩

def shipmentDesk : Desk Shipment := ⟨Cache.empty.set (.shipments .inbound) [shipment], []⟩

def requisitionDesk : Desk Requisition := ⟨Cache.empty.set .requisitions [requisition], []⟩

theorem screen_mirrors : screen.Mirrors lineDesk.cache (empty.writeAll writes) [line] where
  header := by decide +kernel
  stored := rfl
  cached := rfl

/-- All four writes reach the service. -/
theorem foresees_firstDelivery :
    (∃ shown edit,
      lineDesk.remove (screen.removal lineDesk.cache) = (shown, .writing edit) ∧
        shown.Foresees edit screen.key (Service.deleteLines (empty.writeAll writes))
          fun after => after.linesOf "a") ∧
      (∃ shown edit updates after count guess stored,
        lineDesk.update (screen.packUpdate counts lineDesk.cache) = (shown, .writing edit) ∧
          Service.updateLines (empty.writeAll writes) updates = (after, .ok count) ∧
          shown.cache.get? screen.key = some guess ∧
          after.linesOf "a" = .ok stored ∧ Rows.same guess stored = true) ∧
      (∃ shown edit,
        shipmentDesk.remove (shipmentScreen.removal shipmentDesk.cache) = (shown, .writing edit) ∧
          shown.Foresees edit (.shipments .inbound)
            (Service.deleteShipments (empty.writeAll writes))
            fun after => after.listShipments .inbound) ∧
      ∃ shown edit,
        requisitionDesk.remove (requisitionScreen.removal requisitionDesk.cache) =
            (shown, .writing edit) ∧
          shown.Foresees edit .requisitions (Service.deleteRequisitions (empty.writeAll writes))
            fun after => after.listRequisitions := by
  have foreseen := Database.foreseen_writeAll writes
  refine ⟨?_, ?_, ?_, ?_⟩
  · have writing : lineDesk.remove (screen.removal lineDesk.cache) =
        ({ lineDesk with cache := (lineDesk.cache.update screen.key (Rows.without ["b"])).1 },
          .writing ⟨⟨screen.key, some [line], .pending⟩, .remove [Row.target line],
            .deleted .lines 1, 1⟩) := by cbv
    exact ⟨_, _, writing, foreseen.lines _ _ _ _ _ screen_mirrors writing⟩
  · have finite : ∀ change ∈ counts,
        change.2.isFinite = true ∧ change.2.isBelowZero = false := by decide +kernel
    have writing : lineDesk.update (screen.packUpdate counts lineDesk.cache) =
        ({ lineDesk with
            cache := (lineDesk.cache.update screen.key (Rows.withReplacements
              [line.withPacks one, line.withPacks two])).1 },
          .writing ⟨⟨screen.key, some [line], .pending⟩,
            .update [line.withPacks one, line.withPacks two],
            .saved .lines 2, 2⟩) := by cbv
    obtain ⟨_, updates, after, count, guess, stored, -, -, rest⟩ :=
      foreseen.packs _ _ _ _ _ _ screen_mirrors finite writing
    exact ⟨_, _, updates, after, count, guess, stored, writing, rest⟩
  · have writing : shipmentDesk.remove (shipmentScreen.removal shipmentDesk.cache) =
        ({ shipmentDesk with
            cache := (shipmentDesk.cache.update (.shipments .inbound) (Rows.without ["a"])).1 },
          .writing ⟨⟨.shipments .inbound, some [shipment], .pending⟩,
            .remove [Row.target shipment], .deleted .shipments 1, 1⟩) := by cbv
    have stored : (empty.writeAll writes).listShipments .inbound = .ok [shipment] := by
      decide +kernel
    exact ⟨_, _, writing, foreseen.shipments .inbound _ _ _ _ _ stored rfl writing⟩
  · have writing : requisitionDesk.remove (requisitionScreen.removal requisitionDesk.cache) =
        ({ requisitionDesk with
            cache := (requisitionDesk.cache.update .requisitions (Rows.without ["d"])).1 },
          .writing ⟨⟨.requisitions, some [requisition], .pending⟩,
            .remove [Row.target requisition], .deleted .requisitions 1, 1⟩) := by cbv
    have stored : (empty.writeAll writes).listRequisitions = .ok [requisition] := by
      decide +kernel
    exact ⟨_, _, writing, foreseen.requisitions _ _ _ _ _ stored rfl writing⟩

end FirstDelivery

end Depot
