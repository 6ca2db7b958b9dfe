import Depot.Database.Basic

/-!
Contract: shipments in the database.

A new shipment takes the number after the greatest one of its direction. Its
status and hold can be set at any time. A batch of deletions takes new shipments
only, each with its lines.

Owns: creating, finding, listing, changing and deleting shipments.
Does not own: their lines (`Depot.Database.Lines`).
-/

namespace Depot.Database

def shipmentRow? (database : Database) (id : String) : Option ShipmentRow :=
  database.shipments.find? fun row => row.id = .text id

def shipmentById (database : Database) (id : String) : Except Fault (Option Shipment) :=
  database.whenOpen (readFirst ShipmentRow.read (database.shipmentRow? id))

def shipmentByNumber (database : Database) (direction : Direction) (number : Int64) :
    Except Fault (Option Shipment) :=
  database.whenOpen <| readFirst ShipmentRow.read <|
    database.shipments.find? fun row =>
      row.direction = .text direction.word && row.number.agrees (.integer number.toInt)

def shipmentRowsOf (database : Database) (direction : Direction) : List ShipmentRow :=
  database.shipments.filter fun row => row.direction = .text direction.word

/-- The shipments of a direction by number. -/
def listShipments (database : Database) (direction : Direction) :
    Except Fault (List Shipment) :=
  database.whenOpen <|
    readAll ShipmentRow.read
      (byNumber ShipmentRow.number (database.shipmentRowsOf direction))

/-- The number after the greatest one of a direction. -/
def nextShipmentNumber (database : Database) (direction : Direction) : Cell :=
  (Cell.greatest ((database.shipmentRowsOf direction).map ShipmentRow.number)).successor

def createShipment (database : Database) (id : String) (now : Calendar.Instant)
    (direction : Direction) (party : String) : Database × Except Fault Shipment :=
  database.changing <|
    let row : ShipmentRow :=
      { id := .text id
        number := database.nextShipmentNumber direction
        direction := .text direction.word
        status := .text ShipmentStatus.new.word
        party := .text party
        onHold := .ofBool false
        createdAt := .ofInstant now }
    match database.putShipment row with
    | (_, .error fault) => (database, .error fault)
    | (after, .ok ()) =>
        (after,
          match after.shipmentById id with
          | .error fault => .error fault
          | .ok (some shipment) => .ok shipment
          | .ok none => .error (.failed ("invoice " ++ id ++ " missing after insert")))

/-- The database with every shipment of an id changed. -/
def mapShipment (database : Database) (id : String) (change : ShipmentRow → ShipmentRow) :
    Database :=
  { database with
    shipments := database.shipments.map fun row =>
      if row.id = .text id then change row else row }

/-- Change a shipment and tell whether it was there. -/
def changeShipment (database : Database) (id : String) (change : ShipmentRow → ShipmentRow) :
    Database × Except Fault Bool :=
  database.changing (database.mapShipment id change, .ok (database.shipmentRow? id).isSome)

def setShipmentStatus (database : Database) (id : String) (status : ShipmentStatus) :
    Database × Except Fault Bool :=
  database.changeShipment id fun row => { row with status := .text status.word }

/-- Put a shipment on hold, or take it off. -/
def setShipmentHold (database : Database) (id : String) (onHold : Bool) :
    Database × Except Fault Bool :=
  database.changeShipment id fun row => { row with onHold := .ofBool onHold }

/-- The database without a shipment and its lines. -/
def withoutShipment (database : Database) (id : String) : Database :=
  { database with
    shipments := database.shipments.filter fun row => row.id ≠ .text id
    lines := database.lines.filter fun row => row.shipmentId ≠ .text id }

/-- Delete one new shipment with its lines. -/
def deleteShipment (database : Database) (id : String) : Except Fault Database :=
  match database.shipmentRow? id with
  | none => .error (refusal .shipment id false)
  | some row =>
      if row.status = .text ShipmentStatus.new.word then .ok (database.withoutShipment id)
      else .error (refusal .shipment id true)

/-- Delete new shipments with their lines, all or none. -/
def deleteShipments (database : Database) (ids : List String) : Database × Except Fault Nat :=
  database.runBatch deleteShipment ids

end Depot.Database
