import Depot.Database.Shipments

/-!
Contract: the lines of shipments in the database.

A line can be added to any shipment that is there. A batch of deletions or of
new pack counts is done as a whole or not at all; deletions look at the lock of
each line's shipment at the moment in which they happen.

Owns: adding, finding, listing, changing and deleting lines.
Does not own: shipments (`Depot.Database.Shipments`).
-/

namespace Depot.Database

def lineRow? (database : Database) (id : String) : Option LineRow :=
  database.lines.find? fun row => row.id = .text id

def lineById (database : Database) (id : String) : Except Fault (Option Line) :=
  database.whenOpen (readFirst LineRow.read (database.lineRow? id))

/-- The lines of a shipment, in the order in which they were added. -/
def linesOf (database : Database) (shipmentId : String) : Except Fault (List Line) :=
  database.whenOpen <|
    readAll LineRow.read (database.lines.filter fun row => row.shipmentId = .text shipmentId)

def addLine (database : Database) (id shipmentId : String) (item : Item)
    (content : LineContent) : Database × Except Fault Line :=
  let line : Line := ⟨id, shipmentId, item, content⟩
  let refused : Except Fault Line :=
    .error (.failed ("failed to insert line for invoice " ++ shipmentId))
  if database.isOpen then
    match database.putLine (.ofLine line) false with
    | (_, .error _) => (database, refused)
    | (after, .ok ()) => (after, .ok line)
  else (database, refused)

/-- The shipment that a line belongs to, if both are there. -/
def ownerRow? (database : Database) (id : String) : Option ShipmentRow :=
  (database.lineRow? id).bind fun row =>
    database.shipments.find? fun shipment => shipment.id.agrees row.shipmentId

def withoutLine (database : Database) (id : String) : Database :=
  { database with lines := database.lines.filter fun row => row.id ≠ .text id }

/-- Delete one line of a shipment that is not locked. -/
def deleteLine (database : Database) (id : String) : Except Fault Database :=
  match database.ownerRow? id with
  | none => .error (refusal .line id false)
  | some row => do
      let shipment ← row.read
      if shipment.linesLocked then .error (refusal .line id true)
      else .ok (database.withoutLine id)

/-- Delete lines, all or none. -/
def deleteLines (database : Database) (ids : List String) : Database × Except Fault Nat :=
  database.runBatch deleteLine ids

def isStockRow (row : LineRow) : Bool :=
  row.kind = .text LineKind.stockIn.word || row.kind = .text LineKind.stockOut.word

def withPacks (database : Database) (id : String) (packs : Decimal.Binary64) : Database :=
  { database with
    lines := database.lines.map fun row =>
      if row.id = .text id && isStockRow row then
        { row with packs := (Cell.ofDouble packs).stored .real }
      else row }

/-- Set the pack count of one line of stock. -/
def setPacks (database : Database) (change : String × Decimal.Binary64) :
    Except Fault Database :=
  if (database.lineRow? change.1).any isStockRow then
    .ok (database.withPacks change.1 change.2)
  else
    .error (.failed ("invoice line " ++ change.1 ++ " does not exist or carries no packs"))

/-- Set pack counts, all or none. -/
def updatePacks (database : Database) (changes : List (String × Decimal.Binary64)) :
    Database × Except Fault Nat :=
  database.runBatch setPacks changes

end Depot.Database
