import Depot.Database.Lines
import Depot.Database.Requisitions
import Depot.Stock.Rejection
import Depot.Stock.Row
import Depot.Wire.Request

/-!
Contract: the requests that the service answers.

A request is checked against the database before anything is changed, entry by
entry in the order of the request, and turned down at the first entry that fails
a check. What passes is handed to the database as one batch. A batch that is
refused there, because the database has changed meanwhile, is turned down with
the code that the check would have given.

Owns: the checks, their order and their messages.
Does not own: the batches (`Depot.Database`), how requests arrive (`Depot.Http`).
-/

namespace Depot.Service

open Database Text

/-- The answer to a request, or why it is turned down. -/
abbrev Answer (α : Type) : Type := Except Rejection α

/-- A fault of the database that is nobody's mistake. -/
def internal (fault : Fault) : Rejection := ⟨.internal, fault.message⟩

def readFrom {α : Type} : Except Fault α → Answer α
  | .ok value => .ok value
  | .error fault => .error (internal fault)

/-- A record that has to be there. -/
def found {α : Type} (message : String) (read : Except Fault (Option α)) : Answer α := do
  match ← readFrom read with
  | some record => .ok record
  | none => .error ⟨.notFound, message⟩

/-- The rejection for a batch that the database refused. -/
def batchRejection (fault : Fault) : Rejection :=
  match fault with
  | .missing _ _ => ⟨.notFound, fault.message⟩
  | .locked .line _ => ⟨.forbidden, fault.message⟩
  | .locked _ _ => ⟨.validation, fault.message⟩
  | .failed _ | .engine | .closed => internal fault

/-- Check entries in order, up to the first that fails. -/
def checkAll {α : Type} (check : α → Answer Unit) : List α → Answer Unit
  | [] => .ok ()
  | entry :: entries => do
      check entry
      checkAll check entries

/-- A batch that runs if its entries were accepted. -/
def runChecked (database : Database) (checked : Answer Unit)
    (batch : Database × Except Fault Nat) (rejection : Fault → Rejection) :
    Database × Answer Nat :=
  match checked with
  | .error rejected => (database, .error rejected)
  | .ok () =>
      match batch with
      | (after, .ok count) => (after, .ok count)
      | (after, .error fault) => (after, .error (rejection fault))

def listShipments (database : Database) (direction : Direction) : Answer (List Shipment) :=
  readFrom (database.listShipments direction)

def listRequisitions (database : Database) : Answer (List Requisition) :=
  readFrom database.listRequisitions

def shipmentTitle (direction : Direction) (number : Int64) : String :=
  direction.word ++ " shipment " ++ String.ofList (intText number.toInt)

def shipmentDetail (database : Database) (direction : Direction) (number : Int64) :
    Answer ShipmentDetail := do
  let shipment ← found (shipmentTitle direction number ++ " not found")
    (database.shipmentByNumber direction number)
  let lines ← readFrom (database.linesOf shipment.id)
  return ⟨shipment, lines⟩

/-- The ids of the targets, each once, in the order in which they first occur. -/
def distinctIds (targets : List Target) : List String :=
  (targets.map Target.id).eraseDups

/-- A request has to have entries. -/
def requireSome {α : Type} (message : String) (entries : List α) : Answer Unit :=
  if entries.isEmpty then .error ⟨.validation, message⟩ else .ok ()

def requireTargets (targets : List Target) : Answer Unit :=
  requireSome "nothing to delete" targets

/-- A shipment that may be deleted is new. -/
def checkShipmentDeletion (database : Database) (id : String) : Answer Unit := do
  let shipment ← found ("invoice " ++ id ++ " not found") (database.shipmentById id)
  if shipment.status = .new then .ok ()
  else
    .error ⟨.validation, "cannot delete " ++ shipmentTitle shipment.direction shipment.number ++
      ": status is " ++ shipment.status.word⟩

def checkShipmentDeletions (database : Database) (targets : List Target) : Answer Unit := do
  requireTargets targets
  checkAll (checkShipmentDeletion database) (distinctIds targets)

def deleteShipments (database : Database) (targets : List Target) :
    Database × Answer Nat :=
  runChecked database (checkShipmentDeletions database targets)
    (database.deleteShipments (distinctIds targets)) batchRejection

/-- A line that belongs to a shipment and may be edited, and that shipment. -/
def editableLine (database : Database) (id shipmentId : String) :
    Answer (Line × Shipment) := do
  let line ← found ("line " ++ id ++ " not found") (database.lineById id)
  if line.shipmentId ≠ shipmentId then
    .error ⟨.validation, "line " ++ id ++ " does not belong to invoice " ++ shipmentId⟩
  else
    let shipment ← found ("invoice " ++ shipmentId ++ " not found")
      (database.shipmentById line.shipmentId)
    if shipment.linesLocked then
      .error ⟨.forbidden, shipmentTitle shipment.direction shipment.number ++
        " can no longer be edited"⟩
    else .ok (line, shipment)

/-- The id of the shipment that a line to delete has to name. -/
def parentOf (target : Target) : Answer String :=
  match target.parentId with
  | some shipmentId => .ok shipmentId
  | none => .error ⟨.validation, "line " ++ target.id ++ " is missing its invoice id"⟩

/-- A line that may be deleted is editable, and a service or stock of the kind
that its shipment holds. -/
def checkLineDeletion (database : Database) (target : Target) : Answer Unit := do
  let shipmentId ← parentOf target
  let (line, shipment) ← editableLine database target.id shipmentId
  if line.isService || line.kind = shipment.direction.stockKind then .ok ()
  else
    .error ⟨.validation, "line " ++ line.id ++ " is a " ++ line.kind.word ++
      " line, not part of a " ++ shipment.direction.word ++ " shipment"⟩

/-- Check the deletion of lines, every target on its own. -/
def checkLineDeletions (database : Database) (targets : List Target) : Answer Unit := do
  requireTargets targets
  checkAll (checkLineDeletion database) targets

def deleteLines (database : Database) (targets : List Target) : Database × Answer Nat :=
  runChecked database (checkLineDeletions database targets)
    (database.deleteLines (distinctIds targets)) batchRejection

/-- A pack count is finite and not below zero, and belongs to an editable line
of stock. -/
def checkPackUpdate (database : Database) (update : PackUpdate) : Answer Unit := do
  if !update.packs.isFinite || update.packs.isBelowZero then
    .error ⟨.validation, "line " ++ update.id ++ " has an invalid number of packs " ++
      String.ofList (Decimal.plainText update.packs)⟩
  else
    let (line, _) ← editableLine database update.id update.shipmentId
    if line.isService then
      .error ⟨.validation, "service line " ++ line.id ++ " carries no packs"⟩
    else .ok ()

def checkPackUpdates (database : Database) (updates : List PackUpdate) : Answer Unit := do
  requireSome "no lines to update" updates
  checkAll (checkPackUpdate database) updates

def updateLines (database : Database) (updates : List PackUpdate) : Database × Answer Nat :=
  runChecked database (checkPackUpdates database updates)
    (database.updatePacks (updates.map fun update => (update.id, update.packs))) internal

/-- A requisition that may be deleted is a draft. -/
def checkRequisitionDeletion (database : Database) (id : String) : Answer Unit := do
  let requisition ← found ("requisition " ++ id ++ " not found") (database.requisitionById id)
  if requisition.status = .draft then .ok ()
  else
    .error ⟨.validation, "cannot delete requisition " ++
      String.ofList (intText requisition.number.toInt) ++
      ": status is " ++ requisition.status.word⟩

def checkRequisitionDeletions (database : Database) (targets : List Target) :
    Answer Unit := do
  requireTargets targets
  checkAll (checkRequisitionDeletion database) (distinctIds targets)

def deleteRequisitions (database : Database) (targets : List Target) :
    Database × Answer Nat :=
  runChecked database (checkRequisitionDeletions database targets)
    (database.deleteRequisitions (distinctIds targets)) batchRejection

end Depot.Service
