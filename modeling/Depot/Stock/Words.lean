import Depot.Text.Character

/-!
Contract: the fixed words of stock records.

Directions, statuses and kinds of lines are small enumerations, each with the
word it is written as. `ofWord?` knows exactly these words. `read?` is the
lenient reading of words typed or stored by hand: blanks around the word are
dropped and ASCII case does not count.

Owns: the enumerations, their words and both readings.
Does not own: the records (`Depot.Stock.Record`, `Depot.Stock.Record`).
-/

namespace Depot

/-- A word as it is compared in lenient readings. -/
def plainWord (raw : String) : String :=
  String.ofList (Text.lower (Text.trim raw.toList))

/-- Which way a shipment moves stock. -/
inductive Direction where
  | inbound
  | outbound
deriving DecidableEq, Repr

namespace Direction

def all : List Direction := [.inbound, .outbound]

def word : Direction → String
  | .inbound => "inbound"
  | .outbound => "outbound"

def ofWord? (word : String) : Option Direction :=
  all.find? (·.word = word)

/-- The lenient reading of a word. -/
def read? (raw : String) : Option Direction :=
  ofWord? (plainWord raw)

end Direction

/-- How far a shipment has come. -/
inductive ShipmentStatus where
  | new
  | allocated
  | picked
  | shipped
  | delivered
  | verified
deriving DecidableEq, Repr

namespace ShipmentStatus

def all : List ShipmentStatus :=
  [.new, .allocated, .picked, .shipped, .delivered, .verified]

def word : ShipmentStatus → String
  | .new => "new"
  | .allocated => "allocated"
  | .picked => "picked"
  | .shipped => "shipped"
  | .delivered => "delivered"
  | .verified => "verified"

def ofWord? (word : String) : Option ShipmentStatus :=
  all.find? (·.word = word)

def read? (raw : String) : Option ShipmentStatus :=
  ofWord? (plainWord raw)

end ShipmentStatus

/-- How far a requisition has come. -/
inductive RequisitionStatus where
  | draft
  | sent
  | finalised
deriving DecidableEq, Repr

namespace RequisitionStatus

def all : List RequisitionStatus := [.draft, .sent, .finalised]

def word : RequisitionStatus → String
  | .draft => "draft"
  | .sent => "sent"
  | .finalised => "finalised"

def ofWord? (word : String) : Option RequisitionStatus :=
  all.find? (·.word = word)

/-- The lenient reading of a word, which knows two spellings of the last one. -/
def read? (raw : String) : Option RequisitionStatus :=
  let word := plainWord raw
  if word = "finalized" then some .finalised else ofWord? word

end RequisitionStatus

/-- What a line of a shipment holds. -/
inductive LineKind where
  | stockIn
  | stockOut
  | service
deriving DecidableEq, Repr

namespace LineKind

def all : List LineKind := [.stockIn, .stockOut, .service]

def word : LineKind → String
  | .stockIn => "stock_in"
  | .stockOut => "stock_out"
  | .service => "service"

def ofWord? (word : String) : Option LineKind :=
  all.find? (·.word = word)

def read? (raw : String) : Option LineKind :=
  ofWord? (plainWord raw)

end LineKind

/-- The kind of line that a shipment of this direction holds stock in. -/
def Direction.stockKind : Direction → LineKind
  | .inbound => .stockIn
  | .outbound => .stockOut

end Depot
