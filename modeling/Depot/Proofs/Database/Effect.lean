import Depot.Proofs.Database.Batches
import Depot.Proofs.Database.Sound

/-!
Contract: what a write can do to the tables, said once.

A write is refused and changes nothing, or it does one thing to the tables and leaves an
event behind. What holds of every run of writes is proved from these cases, one for each
write, and no later module opens a write again.

Owns: events, the history of a run, and the cases of a write.
Does not own: what is left of a history (`Depot.Proofs.Database.History`).
-/

namespace Depot.Database

/-- What came of a write that was not refused. -/
inductive Event where
  | createdShipment (shipment : Shipment)
  | setShipmentStatus (id : String) (status : ShipmentStatus)
  | setShipmentHold (id : String) (onHold : Bool)
  | deletedShipments (ids : List String)
  | addedLine (line : Line)
  | deletedLines (ids : List String)
  | updatedPacks (changes : List (String × Decimal.Binary64))
  | createdRequisition (requisition : Requisition)
  | setRequisitionStatus (id : String) (status : RequisitionStatus)
  | deletedRequisitions (ids : List String)

/-- The event of a write that is answered with something. -/
def event? (database : Database) : Write → Option Event
  | .createShipment id now direction party =>
      (database.createShipment id now direction party).2.toOption.map .createdShipment
  | .setShipmentStatus id status =>
      (database.setShipmentStatus id status).2.toOption.map fun _ => .setShipmentStatus id status
  | .setShipmentHold id onHold =>
      (database.setShipmentHold id onHold).2.toOption.map fun _ => .setShipmentHold id onHold
  | .deleteShipments ids =>
      (database.deleteShipments ids).2.toOption.map fun _ => .deletedShipments ids
  | .addLine id shipmentId item content =>
      (database.addLine id shipmentId item content).2.toOption.map .addedLine
  | .deleteLines ids => (database.deleteLines ids).2.toOption.map fun _ => .deletedLines ids
  | .updatePacks changes =>
      (database.updatePacks changes).2.toOption.map fun _ => .updatedPacks changes
  | .createRequisition id now party =>
      (database.createRequisition id now party).2.toOption.map .createdRequisition
  | .setRequisitionStatus id status =>
      (database.setRequisitionStatus id status).2.toOption.map fun _ =>
        .setRequisitionStatus id status
  | .deleteRequisitions ids =>
      (database.deleteRequisitions ids).2.toOption.map fun _ => .deletedRequisitions ids

theorem writeAll_append (database : Database) (early later : List Write) :
    database.writeAll (early ++ later) = (database.writeAll early).writeAll later :=
  List.foldl_append

/-- The events of a run of writes. -/
def history (database : Database) : List Write → List Event
  | [] => []
  | write :: writes => (database.event? write).toList ++ (database.write write).history writes

theorem history_append (database : Database) : ∀ early later : List Write,
    database.history (early ++ later) =
      database.history early ++ (database.writeAll early).history later
  | [], later => rfl
  | write :: early, later => by
      show (database.event? write).toList ++ (database.write write).history (early ++ later) =
        ((database.event? write).toList ++ (database.write write).history early) ++
          ((database.write write).writeAll early).history later
      rw [history_append (database.write write) early later, List.append_assoc]

/-! ### The cases of a write -/

/-- The row that a new shipment is given. -/
def newShipmentRow (database : Database) (id : String) (now : Calendar.Instant)
    (direction : Direction) (party : String) : ShipmentRow :=
  ShipmentRow.stored
    { id := .text id
      number := database.nextShipmentNumber direction
      direction := .text direction.word
      status := .text ShipmentStatus.new.word
      party := .text party
      onHold := .ofBool false
      createdAt := .ofInstant now }

/-- The row that a new requisition is given. -/
def newRequisitionRow (database : Database) (id : String) (now : Calendar.Instant)
    (party : String) : RequisitionRow :=
  RequisitionRow.stored
    { id := .text id
      number := database.nextRequisitionNumber
      status := .text RequisitionStatus.draft.word
      party := .text party
      createdAt := .ofInstant now }

/-- The row that a line is given. -/
def LineRow.written (line : Line) : LineRow := (LineRow.ofLine line).stored

theorem LineRow.id_written (line : Line) : (LineRow.written line).id = .text line.id := by
  obtain ⟨id, shipmentId, item, content⟩ := line
  cases content <;> rfl

theorem LineRow.shipmentId_written (line : Line) :
    (LineRow.written line).shipmentId = .text line.shipmentId := by
  obtain ⟨id, shipmentId, item, content⟩ := line
  cases content <;> rfl

theorem LineRow.kind_written (line : Line) :
    (LineRow.written line).kind = .text line.kind.word := by
  obtain ⟨id, shipmentId, item, content⟩ := line
  cases content <;> rfl

def withShipment (database : Database) (row : ShipmentRow) : Database :=
  { database with shipments := database.shipments ++ [row] }

def withLine (database : Database) (row : LineRow) : Database :=
  { database with lines := database.lines ++ [row] }

def withRequisition (database : Database) (row : RequisitionRow) : Database :=
  { database with requisitions := database.requisitions ++ [row] }

/-- The requisitions of an id in another status. -/
def withRequisitionStatus (database : Database) (id : String) (status : RequisitionStatus) :
    Database :=
  { database with
    requisitions := database.requisitions.map fun row =>
      if row.id = .text id then { row with status := .text status.word } else row }

/-- What a write does to an open database, and the event that it leaves behind. -/
inductive Effect (database : Database) : Write → Option Event → Database → Prop
  | refused (write : Write) : Effect database write none database
  | createShipment (id : String) (now : Calendar.Instant) (direction : Direction) (party : String)
      (accepted :
        database.acceptsShipment (database.newShipmentRow id now direction party) = true) :
      Effect database (.createShipment id now direction party)
        (((database.withShipment (database.newShipmentRow id now direction party)).shipmentById
          id).toOption.join.map .createdShipment)
        (database.withShipment (database.newShipmentRow id now direction party))
  | setShipmentStatus (id : String) (status : ShipmentStatus) :
      Effect database (.setShipmentStatus id status) (some (.setShipmentStatus id status))
        (database.mapShipment id fun row => { row with status := .text status.word })
  | setShipmentHold (id : String) (onHold : Bool) :
      Effect database (.setShipmentHold id onHold) (some (.setShipmentHold id onHold))
        (database.mapShipment id fun row => { row with onHold := .ofBool onHold })
  | deleteShipments (ids : List String) :
      Effect database (.deleteShipments ids) (some (.deletedShipments ids))
        (database.withoutShipments ids)
  | addLine (id shipmentId : String) (item : Item) (content : LineContent)
      (accepted : database.acceptsLine (.written ⟨id, shipmentId, item, content⟩) = true)
      (owned : database.hasShipmentOf (.written ⟨id, shipmentId, item, content⟩) = true) :
      Effect database (.addLine id shipmentId item content)
        (some (.addedLine ⟨id, shipmentId, item, content⟩))
        (database.withLine (.written ⟨id, shipmentId, item, content⟩))
  | deleteLines (ids : List String) :
      Effect database (.deleteLines ids) (some (.deletedLines ids)) (database.withoutLines ids)
  | updatePacks (changes : List (String × Decimal.Binary64)) :
      Effect database (.updatePacks changes) (some (.updatedPacks changes))
        (database.withAllPacks changes)
  | createRequisition (id : String) (now : Calendar.Instant) (party : String)
      (accepted : database.acceptsRequisition (database.newRequisitionRow id now party) = true) :
      Effect database (.createRequisition id now party)
        (((database.withRequisition (database.newRequisitionRow id now party)).requisitionById
          id).toOption.join.map .createdRequisition)
        (database.withRequisition (database.newRequisitionRow id now party))
  | setRequisitionStatus (id : String) (status : RequisitionStatus) :
      Effect database (.setRequisitionStatus id status) (some (.setRequisitionStatus id status))
        (database.withRequisitionStatus id status)
  | deleteRequisitions (ids : List String) :
      Effect database (.deleteRequisitions ids) (some (.deletedRequisitions ids))
        (database.withoutRequisitions ids)

/-- The answer to a creation: the record as it reads once it is there. -/
def readBack {α : Type} (title : String) : Except Fault (Option α) → Except Fault α
  | .error fault => .error fault
  | .ok (some record) => .ok record
  | .ok none => .error (.failed (title ++ " missing after insert"))

theorem toOption_readBack {α : Type} (title : String) (read : Except Fault (Option α)) :
    (readBack title read).toOption = read.toOption.join := by
  rcases read with _ | _ | _ <;> rfl

/-- A refused shipment changes nothing; an accepted one is answered as it reads. -/
theorem createShipment_eq {database : Database} (isOpen : database.isOpen = true) (id : String)
    (now : Calendar.Instant) (direction : Direction) (party : String) :
    database.createShipment id now direction party =
      let row := database.newShipmentRow id now direction party
      if database.acceptsShipment row then
        (database.withShipment row,
          readBack ("invoice " ++ id) ((database.withShipment row).shipmentById id))
      else (database, .error .engine) := by
  rw [createShipment, changing, if_pos isOpen]
  simp only [putShipment]
  by_cases accepted :
      database.acceptsShipment (database.newShipmentRow id now direction party) = true
  · simp only [newShipmentRow] at accepted ⊢
    simp only [accepted, ↓reduceIte]
    simp only [withShipment]
    generalize Database.shipmentById _ id = read
    rcases read with _ | _ | _ <;> rfl
  · simp only [newShipmentRow] at accepted ⊢
    simp only [accepted, Bool.false_eq_true, ↓reduceIte]

theorem createRequisition_eq {database : Database} (isOpen : database.isOpen = true) (id : String)
    (now : Calendar.Instant) (party : String) :
    database.createRequisition id now party =
      let row := database.newRequisitionRow id now party
      if database.acceptsRequisition row then
        (database.withRequisition row,
          readBack ("requisition " ++ id) ((database.withRequisition row).requisitionById id))
      else (database, .error .engine) := by
  rw [createRequisition, changing, if_pos isOpen]
  simp only [putRequisition]
  by_cases accepted : database.acceptsRequisition (database.newRequisitionRow id now party) = true
  · simp only [newRequisitionRow] at accepted ⊢
    simp only [accepted, ↓reduceIte]
    simp only [withRequisition]
    generalize Database.requisitionById _ id = read
    rcases read with _ | _ | _ <;> rfl
  · simp only [newRequisitionRow] at accepted ⊢
    simp only [accepted, Bool.false_eq_true, ↓reduceIte]

theorem addLine_eq {database : Database} (isOpen : database.isOpen = true)
    (id shipmentId : String) (item : Item) (content : LineContent) :
    database.addLine id shipmentId item content =
      let row := LineRow.written ⟨id, shipmentId, item, content⟩
      if database.acceptsLine row && database.hasShipmentOf row then
        (database.withLine row, .ok ⟨id, shipmentId, item, content⟩)
      else
        (database, .error (.failed ("failed to insert line for invoice " ++ shipmentId))) := by
  rw [addLine, if_pos isOpen]
  simp only [putLine, Bool.false_or]
  by_cases accepted : (database.acceptsLine (.written ⟨id, shipmentId, item, content⟩) &&
      database.hasShipmentOf (.written ⟨id, shipmentId, item, content⟩)) = true
  · simp only [LineRow.written] at accepted ⊢
    simp only [accepted, ↓reduceIte]
    rfl
  · simp only [LineRow.written] at accepted ⊢
    simp only [accepted, Bool.false_eq_true, ↓reduceIte]

/-- A batch does what it says, or is refused. -/
theorem Effect.of_batch {database : Database} {write : Write} {event : Event} {after : Database}
    {items : Nat} (effect : Effect database write (some event) after)
    {ran : Database × Except Fault Nat}
    (cases : ran = (after, .ok items) ∨ ∃ fault, ran = (database, .error fault)) :
    Effect database write (ran.2.toOption.map fun _ => event) ran.1 := by
  rcases cases with rfl | ⟨fault, rfl⟩
  · exact effect
  · exact .refused write

/-- Every write to an open database has one of the effects. -/
theorem effect_write {database : Database} (isOpen : database.isOpen = true) (write : Write) :
    database.Effect write (database.event? write) (database.write write) := by
  cases write with
  | createShipment id now direction party =>
      rw [event?, Database.write, createShipment_eq isOpen]
      by_cases accepted :
          database.acceptsShipment (database.newShipmentRow id now direction party) = true
      · simp only [accepted, ↓reduceIte]
        rw [toOption_readBack]
        exact .createShipment id now direction party accepted
      · simp only [accepted]
        exact .refused _
  | setShipmentStatus id status =>
      rw [event?, Database.write, Database.setShipmentStatus, changeShipment, changing,
        if_pos isOpen]
      exact .setShipmentStatus id status
  | setShipmentHold id onHold =>
      rw [event?, Database.write, Database.setShipmentHold, changeShipment, changing,
        if_pos isOpen]
      exact .setShipmentHold id onHold
  | deleteShipments ids => exact .of_batch (.deleteShipments ids) (deleteShipments_cases isOpen ids)
  | addLine id shipmentId item content =>
      rw [event?, Database.write, addLine_eq isOpen]
      by_cases accepted : (database.acceptsLine (.written ⟨id, shipmentId, item, content⟩) &&
          database.hasShipmentOf (.written ⟨id, shipmentId, item, content⟩)) = true
      · simp only [accepted, ↓reduceIte]
        obtain ⟨fresh, owned⟩ := Bool.and_eq_true_iff.mp accepted
        exact .addLine id shipmentId item content fresh owned
      · simp only [accepted]
        exact .refused _
  | deleteLines ids => exact .of_batch (.deleteLines ids) (deleteLines_cases isOpen ids)
  | updatePacks changes => exact .of_batch (.updatePacks changes) (updatePacks_cases isOpen changes)
  | createRequisition id now party =>
      rw [event?, Database.write, createRequisition_eq isOpen]
      by_cases accepted :
          database.acceptsRequisition (database.newRequisitionRow id now party) = true
      · simp only [accepted, ↓reduceIte]
        rw [toOption_readBack]
        exact .createRequisition id now party accepted
      · simp only [accepted]
        exact .refused _
  | setRequisitionStatus id status =>
      rw [event?, Database.write, Database.setRequisitionStatus, changing, if_pos isOpen]
      exact .setRequisitionStatus id status
  | deleteRequisitions ids =>
      exact .of_batch (.deleteRequisitions ids) (deleteRequisitions_cases isOpen ids)

end Depot.Database
