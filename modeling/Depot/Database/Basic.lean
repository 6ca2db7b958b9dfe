import Depot.Database.Rows

/-!
Contract: the tables and what they accept.

A database holds three tables, each in the order in which its rows came. A row
is accepted when its necessary columns hold something, when no other row has its
id or its number, and, for a line, when its shipment is there. A refused row
leaves the database as it was.

Owns: the tables, the constraints, and the raw insertion of rows.
Does not own: the operations on records (`Depot.Database.Shipments`,
`Depot.Database.Lines`, `Depot.Database.Requisitions`).
-/

namespace Depot

open Database

/-- The tables of a database. A closed one answers nothing any more. -/
structure Database where
  shipments : List ShipmentRow
  lines : List LineRow
  requisitions : List RequisitionRow
  isOpen : Bool
deriving DecidableEq

namespace Database

def empty : Database := ⟨[], [], [], true⟩

def close (database : Database) : Database :=
  { database with isOpen := false }

def whenOpen {α : Type} (database : Database) (answer : Except Fault α) : Except Fault α :=
  if database.isOpen then answer else .error .closed

/-- A change and its answer, unless the database is closed. -/
def changing {α : Type} (database : Database) (change : Database × Except Fault α) :
    Database × Except Fault α :=
  if database.isOpen then change else (database, .error .closed)

def health (database : Database) : Except Fault Unit :=
  if database.isOpen then .ok () else .error (.failed "sqlite ping failed")

/-- Whether the table of shipments accepts a row: its id is new, and so is its
number among those of its direction. -/
def acceptsShipment (database : Database) (row : ShipmentRow) : Bool :=
  row.isFilled &&
    database.shipments.all fun other =>
      !other.id.agrees row.id &&
        !(other.direction.agrees row.direction && other.number.agrees row.number)

/-- Whether the table of lines accepts a row: its id is new. -/
def acceptsLine (database : Database) (row : LineRow) : Bool :=
  row.isFilled && database.lines.all fun other => !other.id.agrees row.id

def hasShipmentOf (database : Database) (row : LineRow) : Bool :=
  database.shipments.any fun shipment => shipment.id.agrees row.shipmentId

/-- Whether the table of requisitions accepts a row: its id and its number are
new. -/
def acceptsRequisition (database : Database) (row : RequisitionRow) : Bool :=
  row.isFilled &&
    database.requisitions.all fun other =>
      !other.id.agrees row.id && !other.number.agrees row.number

def putShipment (database : Database) (row : ShipmentRow) : Database × Except Fault Unit :=
  let row := row.stored
  if database.acceptsShipment row then
    ({ database with shipments := database.shipments ++ [row] }, .ok ())
  else (database, .error .engine)

/-- Insert a row into the table of lines. An orphan needs no shipment. -/
def putLine (database : Database) (row : LineRow) (orphan : Bool) :
    Database × Except Fault Unit :=
  let row := row.stored
  if database.acceptsLine row && (orphan || database.hasShipmentOf row) then
    ({ database with lines := database.lines ++ [row] }, .ok ())
  else (database, .error .engine)

def putRequisition (database : Database) (row : RequisitionRow) :
    Database × Except Fault Unit :=
  let row := row.stored
  if database.acceptsRequisition row then
    ({ database with requisitions := database.requisitions ++ [row] }, .ok ())
  else (database, .error .engine)

/-- The records of rows, or the fault of the first row that has one. -/
def readAll {α β : Type} (read : α → Except Fault β) : List α → Except Fault (List β)
  | [] => .ok []
  | row :: rows => do
      let record ← read row
      let records ← readAll read rows
      return record :: records

def readFirst {α β : Type} (read : α → Except Fault β) : Option α → Except Fault (Option β)
  | none => .ok none
  | some row => (read row).map some

def byNumber {α : Type} (number : α → Cell) (rows : List α) : List α :=
  rows.mergeSort fun left right => (number left).order (number right) ≠ .gt

/-- The refusal of a batch at a record: it is locked if it is there. -/
def refusal (entity : Entity) (id : String) (isThere : Bool) : Fault :=
  if isThere then .locked entity id else .missing entity id

/-- Run a batch from the first id to the last. When one is refused, nothing of
the batch has happened. -/
def batch {α : Type} (database : Database) (one : Database → α → Except Fault Database) :
    List α → Except Fault Database
  | [] => .ok database
  | item :: items => do batch (← one database item) one items

/-- Run a batch and count it. -/
def runBatch {α : Type} (database : Database) (one : Database → α → Except Fault Database)
    (items : List α) : Database × Except Fault Nat :=
  database.changing <|
    match database.batch one items with
    | .ok after => (after, .ok items.length)
    | .error fault => (database, .error fault)

end Database

end Depot
