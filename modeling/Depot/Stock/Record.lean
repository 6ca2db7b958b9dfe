import Depot.Calendar.Date
import Depot.Calendar.Instant
import Depot.Decimal.Binary64
import Depot.Stock.Words

/-!
Contract: the records: shipments with their lines, and requisitions.

A shipment's lines are locked while it is on hold, and for good once it has
come far enough: an inbound shipment when it is verified, an outbound one as
soon as it leaves the store. A line names an item and holds either received
stock, issued stock or a service. Which of the three it is follows from its
content, so that a field is there exactly where it means something.

Owns: the records, the lock, and the change of a line's pack count.
Does not own: written forms (`Depot.Wire`).
-/

namespace Depot

/-! ### Shipments and requisitions -/

structure Shipment where
  id : String
  number : Int64
  direction : Direction
  status : ShipmentStatus
  party : String
  onHold : Bool
  createdAt : Calendar.Instant
deriving DecidableEq

/-- Whether the status alone locks the lines of a shipment. -/
def ShipmentStatus.locks (status : ShipmentStatus) : Direction → Bool
  | .inbound => status = .verified
  | .outbound => status = .shipped || status = .delivered || status = .verified

/-- Whether the lines can no longer be changed or deleted. -/
def Shipment.linesLocked (shipment : Shipment) : Bool :=
  shipment.onHold || shipment.status.locks shipment.direction

/-- A request for stock. -/
structure Requisition where
  id : String
  number : Int64
  status : RequisitionStatus
  party : String
  createdAt : Calendar.Instant
deriving DecidableEq

/-! ### Lines -/

open Decimal

/-- An item of the catalogue, as lines name it. -/
structure Item where
  id : String
  code : String
  name : String
deriving DecidableEq, Repr

/-- A quantity of stock: which batch, in packs of which size, and how many. -/
structure Stock where
  batch : Option String
  expiry : Option Calendar.Date
  packSize : UInt32
  packs : Binary64
deriving DecidableEq

/-- What a line holds. -/
inductive LineContent where
  /-- Stock received, at a cost price for a pack. -/
  | stockIn (stock : Stock) (costPrice : Binary64)
  /-- Stock issued out of a stock line, at a sell price for a pack. -/
  | stockOut (stockLineId : String) (stock : Stock) (sellPrice : Binary64)
  /-- A service, with its total before tax. -/
  | service (total : Binary64) (note : Option String)
deriving DecidableEq

namespace LineContent

def kind : LineContent → LineKind
  | .stockIn .. => .stockIn
  | .stockOut .. => .stockOut
  | .service .. => .service

def stock? : LineContent → Option Stock
  | .stockIn stock _ => some stock
  | .stockOut _ stock _ => some stock
  | .service .. => none

def batch? (content : LineContent) : Option String :=
  content.stock?.bind Stock.batch

def expiry? (content : LineContent) : Option Calendar.Date :=
  content.stock?.bind Stock.expiry

def packSize? (content : LineContent) : Option UInt32 :=
  content.stock?.map Stock.packSize

def packs? (content : LineContent) : Option Binary64 :=
  content.stock?.map Stock.packs

/-- The content with another number of packs. A service has none and stays. -/
def withPacks (content : LineContent) (packs : Binary64) : LineContent :=
  match content with
  | .stockIn stock costPrice => .stockIn { stock with packs } costPrice
  | .stockOut stockLineId stock sellPrice =>
      .stockOut stockLineId { stock with packs } sellPrice
  | .service total note => .service total note

end LineContent

structure Line where
  id : String
  shipmentId : String
  item : Item
  content : LineContent
deriving DecidableEq

namespace Line

def kind (line : Line) : LineKind := line.content.kind

def isService (line : Line) : Bool := line.kind = .service

def withPacks (line : Line) (packs : Binary64) : Line :=
  { line with content := line.content.withPacks packs }

end Line

/-- Equal quantities of stock, numbers compared by value. -/
def Stock.same (left right : Stock) : Bool :=
  left.batch = right.batch && left.expiry = right.expiry &&
    left.packSize = right.packSize && left.packs.equals right.packs

def LineContent.same : LineContent → LineContent → Bool
  | .stockIn leftStock leftPrice, .stockIn rightStock rightPrice =>
      leftStock.same rightStock && leftPrice.equals rightPrice
  | .stockOut leftLine leftStock leftPrice, .stockOut rightLine rightStock rightPrice =>
      leftLine = rightLine && leftStock.same rightStock && leftPrice.equals rightPrice
  | .service leftTotal leftNote, .service rightTotal rightNote =>
      leftTotal.equals rightTotal && leftNote = rightNote
  | _, _ => false

/-- Equal lines, numbers compared by value. -/
def Line.same (left right : Line) : Bool :=
  left.id = right.id && left.shipmentId = right.shipmentId &&
    left.item = right.item && left.content.same right.content

end Depot
