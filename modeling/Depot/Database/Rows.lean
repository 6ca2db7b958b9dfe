import Depot.Calendar.Pattern
import Depot.Database.Cell
import Depot.Stock.Record

/-!
Contract: the rows of the three tables, and the records they stand for.

A row has a cell for each column. `ofShipment`, `ofLine` and `ofRequisition`
write a record into cells; the `read` functions go back. A row that was written
by hand may hold anything, so reading fails with the first cell, in a fixed
order, that cannot be understood.

Owns: columns, their affinities, both directions, and why the database does not
do what it is asked.
Does not own: the tables and their constraints (`Depot.Database.Basic`).
-/

namespace Depot.Database

/-! ### Faults -/

/-- The kinds of records that a batch can refuse. -/
inductive Entity where
  | shipment
  | line
  | requisition
deriving DecidableEq, Repr

def Entity.name : Entity → String
  | .shipment => "invoice"
  | .line => "invoice line"
  | .requisition => "requisition"

/-- What went wrong. -/
inductive Fault where
  /-- A batch names a record that is not there. -/
  | missing (entity : Entity) (id : String)
  /-- A batch names a record that may not be deleted any more. -/
  | locked (entity : Entity) (id : String)
  /-- The records cannot be understood or changed as asked. -/
  | failed (message : String)
  /-- The engine refused a value or a statement. -/
  | engine
  /-- The database was closed. -/
  | closed
deriving DecidableEq, Repr

/-- The message of a fault. The engine's own words are not part of it. -/
def Fault.message : Fault → String
  | .missing entity id => entity.name ++ " " ++ id ++ " does not exist"
  | .locked entity id => entity.name ++ " " ++ id ++ " can no longer be deleted"
  | .failed message => message
  | .engine => "database"
  | .closed => "attempted to acquire a connection on a closed pool"

/-! ### Rows -/

open Text

namespace Cell

/-- The text of a cell; an empty one, which only an id can be, has no characters. -/
def readText : Cell → Except Fault String
  | .text value => .ok value
  | .empty => .ok ""
  | _ => .error .engine

def readText? : Cell → Except Fault (Option String)
  | .empty => .ok none
  | .text value => .ok (some value)
  | _ => .error .engine

def readInteger? : Cell → Except Fault (Option Int)
  | .empty => .ok none
  | .integer value => .ok (some value)
  | _ => .error .engine

def readNumber : Cell → Except Fault Int64
  | .integer value => .ok (Int64.ofInt value)
  | _ => .error .engine

/-- The truth value of a cell: whether its integer is not zero. -/
def readBool : Cell → Except Fault Bool
  | .integer value => .ok (value ≠ 0)
  | _ => .error .engine

def readDouble? : Cell → Except Fault (Option Decimal.Binary64)
  | .empty => .ok none
  | .real value => .ok (some value)
  | _ => .error .engine

def readInstant (cell : Cell) : Except Fault Calendar.Instant := do
  match Calendar.readColumnInstant? (← cell.readText).toList with
  | some moment => .ok moment
  | none => .error .engine

def readDate? (cell : Cell) : Except Fault (Option Calendar.Date) := do
  match ← cell.readText? with
  | none => .ok none
  | some written =>
      match Calendar.readColumnDate? written.toList with
      | some date => .ok (some date)
      | none => .error .engine

def ofInstant (moment : Calendar.Instant) : Cell :=
  .text (String.ofList moment.columnText)

def ofDate? (date : Option Calendar.Date) : Cell :=
  date.elim .empty fun date => .text (String.ofList date.text)

end Cell

/-- The word that a cell's text is, read leniently. -/
def readWord {α : Type} (read? : String → Option α) (noun raw : String) : Except Fault α :=
  match read? raw with
  | some value => .ok value
  | none => .error (.failed ("unknown " ++ noun ++ " '" ++ raw ++ "'"))

structure ShipmentRow where
  id : Cell
  number : Cell
  direction : Cell
  status : Cell
  party : Cell
  onHold : Cell
  createdAt : Cell
deriving DecidableEq

namespace ShipmentRow

/-- The row with given cells under the names of its columns. -/
def ofColumns (cell : String → Cell) : ShipmentRow where
  id := cell "id"
  number := cell "invoice_number"
  direction := cell "kind"
  status := cell "status"
  party := cell "other_party_name"
  onHold := cell "on_hold"
  createdAt := cell "created_at"

/-- The row as its columns keep it. -/
def stored (row : ShipmentRow) : ShipmentRow where
  id := row.id.stored .text
  number := row.number.stored .integer
  direction := row.direction.stored .text
  status := row.status.stored .text
  party := row.party.stored .text
  onHold := row.onHold.stored .integer
  createdAt := row.createdAt.stored .text

/-- Whether every column that must hold something does. Only the id may be
empty. -/
def isFilled (row : ShipmentRow) : Bool :=
  [row.number, row.direction, row.status, row.party, row.onHold, row.createdAt].all
    fun cell => !cell.isEmpty

def ofShipment (shipment : Shipment) : ShipmentRow where
  id := .text shipment.id
  number := .integer shipment.number.toInt
  direction := .text shipment.direction.word
  status := .text shipment.status.word
  party := .text shipment.party
  onHold := .ofBool shipment.onHold
  createdAt := .ofInstant shipment.createdAt

def read (row : ShipmentRow) : Except Fault Shipment := do
  let direction ← row.direction.readText
  let status ← row.status.readText
  let id ← row.id.readText
  let number ← row.number.readNumber
  let direction ← readWord Direction.read? "invoice kind" direction
  let status ← readWord ShipmentStatus.read? "invoice status" status
  let party ← row.party.readText
  let onHold ← row.onHold.readBool
  let createdAt ← row.createdAt.readInstant
  return ⟨id, number, direction, status, party, onHold, createdAt⟩

end ShipmentRow

structure LineRow where
  id : Cell
  shipmentId : Cell
  kind : Cell
  itemId : Cell
  itemCode : Cell
  itemName : Cell
  batch : Cell
  expiry : Cell
  packSize : Cell
  packs : Cell
  price : Cell
  stockLineId : Cell
  total : Cell
  note : Cell
deriving DecidableEq

namespace LineRow

def ofColumns (cell : String → Cell) : LineRow where
  id := cell "id"
  shipmentId := cell "invoice_id"
  kind := cell "line_type"
  itemId := cell "item_id"
  itemCode := cell "item_code"
  itemName := cell "item_name"
  batch := cell "batch"
  expiry := cell "expiry_date"
  packSize := cell "pack_size"
  packs := cell "number_of_packs"
  price := cell "price_per_pack"
  stockLineId := cell "stock_line_id"
  total := cell "total_before_tax"
  note := cell "note"

def stored (row : LineRow) : LineRow where
  id := row.id.stored .text
  shipmentId := row.shipmentId.stored .text
  kind := row.kind.stored .text
  itemId := row.itemId.stored .text
  itemCode := row.itemCode.stored .text
  itemName := row.itemName.stored .text
  batch := row.batch.stored .text
  expiry := row.expiry.stored .text
  packSize := row.packSize.stored .integer
  packs := row.packs.stored .real
  price := row.price.stored .real
  stockLineId := row.stockLineId.stored .text
  total := row.total.stored .real
  note := row.note.stored .text

def isFilled (row : LineRow) : Bool :=
  [row.shipmentId, row.kind, row.itemId, row.itemCode, row.itemName].all
    fun cell => !cell.isEmpty

/-- The row with the columns of its content still empty. -/
def ofParts (id shipmentId : String) (item : Item) (kind : LineKind) : LineRow where
  id := .text id
  shipmentId := .text shipmentId
  kind := .text kind.word
  itemId := .text item.id
  itemCode := .text item.code
  itemName := .text item.name
  batch := .empty
  expiry := .empty
  packSize := .empty
  packs := .empty
  price := .empty
  stockLineId := .empty
  total := .empty
  note := .empty

def withStock (row : LineRow) (stock : Stock) (price : Decimal.Binary64) : LineRow :=
  { row with
    batch := .ofText? stock.batch
    expiry := .ofDate? stock.expiry
    packSize := .integer stock.packSize.toNat
    packs := .ofDouble stock.packs
    price := .ofDouble price }

def ofLine (line : Line) : LineRow :=
  let row := ofParts line.id line.shipmentId line.item line.kind
  match line.content with
  | .stockIn stock costPrice => row.withStock stock costPrice
  | .stockOut stockLineId stock sellPrice =>
      { row.withStock stock sellPrice with stockLineId := .text stockLineId }
  | .service total note => { row with total := .ofDouble total, note := .ofText? note }

/-- A value that a line cannot do without. -/
def required {α : Type} (id column : String) : Option α → Except Fault α
  | some value => .ok value
  | none => .error (.failed ("line " ++ id ++ " is missing " ++ column))

def readPackSize (row : LineRow) (id : String) : Except Fault UInt32 := do
  let raw ← required id "pack_size" (← row.packSize.readInteger?)
  if 0 ≤ raw ∧ raw < Int.pow 2 32 then return UInt32.ofNat raw.toNat
  else
    .error (.failed ("line " ++ id ++ " has invalid pack_size " ++ String.ofList (intText raw)))

/-- The quantity of stock and its price. -/
def readStock (row : LineRow) (id : String) : Except Fault (Stock × Decimal.Binary64) := do
  let batch ← row.batch.readText?
  let expiry ← row.expiry.readDate?
  let packSize ← row.readPackSize id
  let packs ← required id "number_of_packs" (← row.packs.readDouble?)
  let price ← required id "price_per_pack" (← row.price.readDouble?)
  return (⟨batch, expiry, packSize, packs⟩, price)

def readContent (row : LineRow) (id : String) : LineKind → Except Fault LineContent
  | .stockIn => do
      let (stock, price) ← row.readStock id
      return .stockIn stock price
  | .stockOut => do
      let stockLineId ← required id "stock_line_id" (← row.stockLineId.readText?)
      let (stock, price) ← row.readStock id
      return .stockOut stockLineId stock price
  | .service => do
      let total ← required id "total_before_tax" (← row.total.readDouble?)
      let note ← row.note.readText?
      return .service total note

def readKind (id raw : String) : Except Fault LineKind :=
  match LineKind.read? raw with
  | some kind => .ok kind
  | none => .error (.failed ("unknown line type '" ++ raw ++ "' on line " ++ id))

def read (row : LineRow) : Except Fault Line := do
  let id ← row.id.readText
  let kind ← readKind id (← row.kind.readText)
  let content ← row.readContent id kind
  let shipmentId ← row.shipmentId.readText
  let itemId ← row.itemId.readText
  let itemCode ← row.itemCode.readText
  let itemName ← row.itemName.readText
  return ⟨id, shipmentId, ⟨itemId, itemCode, itemName⟩, content⟩

end LineRow

structure RequisitionRow where
  id : Cell
  number : Cell
  status : Cell
  party : Cell
  createdAt : Cell
deriving DecidableEq

namespace RequisitionRow

def ofColumns (cell : String → Cell) : RequisitionRow where
  id := cell "id"
  number := cell "requisition_number"
  status := cell "status"
  party := cell "other_party_name"
  createdAt := cell "created_at"

def stored (row : RequisitionRow) : RequisitionRow where
  id := row.id.stored .text
  number := row.number.stored .integer
  status := row.status.stored .text
  party := row.party.stored .text
  createdAt := row.createdAt.stored .text

def isFilled (row : RequisitionRow) : Bool :=
  [row.number, row.status, row.party, row.createdAt].all fun cell => !cell.isEmpty

def ofRequisition (requisition : Requisition) : RequisitionRow where
  id := .text requisition.id
  number := .integer requisition.number.toInt
  status := .text requisition.status.word
  party := .text requisition.party
  createdAt := .ofInstant requisition.createdAt

def read (row : RequisitionRow) : Except Fault Requisition := do
  let status ← row.status.readText
  let id ← row.id.readText
  let number ← row.number.readNumber
  let status ← readWord RequisitionStatus.read? "requisition status" status
  let party ← row.party.readText
  let createdAt ← row.createdAt.readInstant
  return ⟨id, number, status, party, createdAt⟩

end RequisitionRow

end Depot.Database
