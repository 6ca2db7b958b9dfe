import Depot.Wire.Stock

/-!
Contract: the documents that requests and answers are.

Owns: deletions, pack updates, the choice of a list, the detail of a shipment
and the two counts.
Does not own: the records inside them (`Depot.Wire.Stock`).
-/

namespace Depot

open Wire

/-- The record of a type that wraps one value. -/
def Wire.oneField {α β : Type} [Wire β] (name : String) (view : α → β) (build : β → α) :
    Record α where
  Field := Unit
  sameField := inferInstance
  fields := [()]
  name _ := name
  Value _ := β
  wire _ := inferInstance
  absent _ := none
  unsent _ := none
  view value _ := view value
  isWritten _ _ := true
  build draft := (draft ()).map build

/-- The rows that a deletion names. -/
structure DeleteRequest where
  targets : List Target
deriving DecidableEq, Repr

instance : Wire DeleteRequest :=
  (oneField "targets" DeleteRequest.targets DeleteRequest.mk).toWire

/-- How many rows a deletion deleted. -/
structure DeleteAnswer where
  deleted : UInt64
deriving DecidableEq, Repr

instance : Wire DeleteAnswer :=
  (oneField "deleted" DeleteAnswer.deleted DeleteAnswer.mk).toWire

/-- Which list of shipments is wanted. -/
structure ShipmentQuery where
  direction : Direction
deriving DecidableEq, Repr

instance : Wire ShipmentQuery :=
  (oneField "kind" ShipmentQuery.direction ShipmentQuery.mk).toWire

/-- A new pack count for a line of a shipment. -/
structure PackUpdate where
  id : String
  shipmentId : String
  packs : Decimal.Binary64
deriving DecidableEq

inductive PackUpdate.Field where
  | id
  | shipmentId
  | packs
deriving DecidableEq

def PackUpdate.record : Record PackUpdate where
  Field := PackUpdate.Field
  sameField := inferInstance
  fields := [.id, .shipmentId, .packs]
  name
    | .id => "id"
    | .shipmentId => "invoice_id"
    | .packs => "number_of_packs"
  Value
    | .id => String
    | .shipmentId => String
    | .packs => Decimal.Binary64
  wire
    | .id => (inferInstance : Wire String)
    | .shipmentId => (inferInstance : Wire String)
    | .packs => (inferInstance : Wire Decimal.Binary64)
  absent _ := none
  unsent _ := none
  view update
    | .id => update.id
    | .shipmentId => update.shipmentId
    | .packs => update.packs
  isWritten _ _ := true
  build draft := do return ⟨← draft .id, ← draft .shipmentId, ← draft .packs⟩

instance : Wire PackUpdate := PackUpdate.record.toWire

/-- The pack updates of a request. -/
structure UpdateRequest where
  lines : List PackUpdate
deriving DecidableEq

instance : Wire UpdateRequest :=
  (oneField "lines" UpdateRequest.lines UpdateRequest.mk).toWire

/-- How many lines an update changed. -/
structure UpdateAnswer where
  updated : UInt64
deriving DecidableEq, Repr

instance : Wire UpdateAnswer :=
  (oneField "updated" UpdateAnswer.updated UpdateAnswer.mk).toWire

/-- A shipment with its lines. -/
structure ShipmentDetail where
  shipment : Shipment
  lines : List Line
deriving DecidableEq

inductive ShipmentDetail.Field where
  | shipment
  | lines
deriving DecidableEq

def ShipmentDetail.record : Record ShipmentDetail where
  Field := ShipmentDetail.Field
  sameField := inferInstance
  fields := [.shipment, .lines]
  name
    | .shipment => "invoice"
    | .lines => "lines"
  Value
    | .shipment => Shipment
    | .lines => List Line
  wire
    | .shipment => (inferInstance : Wire Shipment)
    | .lines => (inferInstance : Wire (List Line))
  absent _ := none
  unsent _ := none
  view detail
    | .shipment => detail.shipment
    | .lines => detail.lines
  isWritten _ _ := true
  build draft := do return ⟨← draft .shipment, ← draft .lines⟩

instance : Wire ShipmentDetail := ShipmentDetail.record.toWire

end Depot
