import Depot.Database.Basic

/-!
Contract: requisitions in the database.

Owns: creating, finding, listing, changing and deleting requisitions.
Does not own: shipments (`Depot.Database.Shipments`).
-/

namespace Depot.Database

def requisitionRow? (database : Database) (id : String) : Option RequisitionRow :=
  database.requisitions.find? fun row => row.id = .text id

def requisitionById (database : Database) (id : String) :
    Except Fault (Option Requisition) :=
  database.whenOpen (readFirst RequisitionRow.read (database.requisitionRow? id))

def listRequisitions (database : Database) : Except Fault (List Requisition) :=
  database.whenOpen <|
    readAll RequisitionRow.read (byNumber RequisitionRow.number database.requisitions)

/-- The number after the greatest one. -/
def nextRequisitionNumber (database : Database) : Cell :=
  (Cell.greatest (database.requisitions.map RequisitionRow.number)).successor

def createRequisition (database : Database) (id : String) (now : Calendar.Instant)
    (party : String) : Database × Except Fault Requisition :=
  database.changing <|
    let row : RequisitionRow :=
      { id := .text id
        number := database.nextRequisitionNumber
        status := .text RequisitionStatus.draft.word
        party := .text party
        createdAt := .ofInstant now }
    match database.putRequisition row with
    | (_, .error fault) => (database, .error fault)
    | (after, .ok ()) =>
        (after,
          match after.requisitionById id with
          | .error fault => .error fault
          | .ok (some requisition) => .ok requisition
          | .ok none => .error (.failed ("requisition " ++ id ++ " missing after insert")))

/-- Set a requisition's status and tell whether it was there. -/
def setRequisitionStatus (database : Database) (id : String) (status : RequisitionStatus) :
    Database × Except Fault Bool :=
  database.changing
    ({ database with
        requisitions := database.requisitions.map fun row =>
          if row.id = .text id then { row with status := .text status.word } else row },
      .ok (database.requisitionRow? id).isSome)

def withoutRequisition (database : Database) (id : String) : Database :=
  { database with
    requisitions := database.requisitions.filter fun row => row.id ≠ .text id }

/-- Delete one draft. -/
def deleteRequisition (database : Database) (id : String) : Except Fault Database :=
  match database.requisitionRow? id with
  | none => .error (refusal .requisition id false)
  | some row =>
      if row.status = .text RequisitionStatus.draft.word then
        .ok (database.withoutRequisition id)
      else .error (refusal .requisition id true)

/-- Delete drafts, all or none. -/
def deleteRequisitions (database : Database) (ids : List String) :
    Database × Except Fault Nat :=
  database.runBatch deleteRequisition ids

end Depot.Database
