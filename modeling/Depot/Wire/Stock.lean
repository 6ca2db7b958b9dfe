import Depot.Stock.Rejection
import Depot.Stock.Row
import Depot.Wire.Record

/-!
Contract: the written forms of stock records.

Directions, statuses and codes are words. Items, shipments, requisitions, lines,
targets and rejections are records. A line's content is an object whose member
`type` says which of three records the other members make; it may also be an
array that starts with that word.

Owns: field names and field order.
Does not own: the documents that requests and answers are (`Depot.Wire.Request`).
-/

namespace Depot

open Wire

instance : Wire Direction := ofWords Direction.word Direction.ofWord?

instance : Wire ShipmentStatus := ofWords ShipmentStatus.word ShipmentStatus.ofWord?

instance : Wire RequisitionStatus :=
  ofWords RequisitionStatus.word RequisitionStatus.ofWord?

instance : Wire LineKind := ofWords LineKind.word LineKind.ofWord?

instance : Wire RejectionCode := ofWords RejectionCode.word RejectionCode.ofWord?

inductive Item.Field where
  | id
  | code
  | name
deriving DecidableEq

/-- An item: three texts. -/
def Item.record : Record Item where
  Field := Item.Field
  sameField := inferInstance
  fields := [.id, .code, .name]
  name
    | .id => "id"
    | .code => "code"
    | .name => "name"
  Value _ := String
  wire _ := inferInstance
  absent _ := none
  unsent _ := none
  view item
    | .id => item.id
    | .code => item.code
    | .name => item.name
  isWritten _ _ := true
  build draft := do return ⟨← draft .id, ← draft .code, ← draft .name⟩

instance : Wire Item := Item.record.toWire

inductive Target.Field where
  | id
  | parentId
deriving DecidableEq

/-- A target: an id, and the parent's id where there is a parent. -/
def Target.record : Record Target where
  Field := Target.Field
  sameField := inferInstance
  fields := [.id, .parentId]
  name
    | .id => "id"
    | .parentId => "parent_id"
  Value
    | .id => String
    | .parentId => Option String
  wire
    | .id => (inferInstance : Wire String)
    | .parentId => (inferInstance : Wire (Option String))
  absent
    | .id => none
    | .parentId => some (none : Option String)
  unsent
    | .id => none
    | .parentId => some (none : Option String)
  view target
    | .id => target.id
    | .parentId => target.parentId
  isWritten target
    | .id => true
    | .parentId => target.parentId.isSome
  build draft := do return ⟨← draft .id, ← draft .parentId⟩

instance : Wire Target := Target.record.toWire

inductive Shipment.Field where
  | id
  | number
  | direction
  | status
  | party
  | onHold
  | createdAt
deriving DecidableEq

/-- A shipment, which documents call an invoice. -/
def Shipment.record : Record Shipment where
  Field := Shipment.Field
  sameField := inferInstance
  fields := [.id, .number, .direction, .status, .party, .onHold, .createdAt]
  name
    | .id => "id"
    | .number => "invoice_number"
    | .direction => "kind"
    | .status => "status"
    | .party => "other_party_name"
    | .onHold => "on_hold"
    | .createdAt => "created_at"
  Value
    | .id => String
    | .number => Int64
    | .direction => Direction
    | .status => ShipmentStatus
    | .party => String
    | .onHold => Bool
    | .createdAt => Calendar.Instant
  wire
    | .id => (inferInstance : Wire String)
    | .number => (inferInstance : Wire Int64)
    | .direction => (inferInstance : Wire Direction)
    | .status => (inferInstance : Wire ShipmentStatus)
    | .party => (inferInstance : Wire String)
    | .onHold => (inferInstance : Wire Bool)
    | .createdAt => (inferInstance : Wire Calendar.Instant)
  absent _ := none
  unsent _ := none
  view shipment
    | .id => shipment.id
    | .number => shipment.number
    | .direction => shipment.direction
    | .status => shipment.status
    | .party => shipment.party
    | .onHold => shipment.onHold
    | .createdAt => shipment.createdAt
  isWritten _ _ := true
  build draft := do
    return ⟨← draft .id, ← draft .number, ← draft .direction, ← draft .status,
      ← draft .party, ← draft .onHold, ← draft .createdAt⟩

instance : Wire Shipment := Shipment.record.toWire

inductive Requisition.Field where
  | id
  | number
  | status
  | party
  | createdAt
deriving DecidableEq

def Requisition.record : Record Requisition where
  Field := Requisition.Field
  sameField := inferInstance
  fields := [.id, .number, .status, .party, .createdAt]
  name
    | .id => "id"
    | .number => "requisition_number"
    | .status => "status"
    | .party => "other_party_name"
    | .createdAt => "created_at"
  Value
    | .id => String
    | .number => Int64
    | .status => RequisitionStatus
    | .party => String
    | .createdAt => Calendar.Instant
  wire
    | .id => (inferInstance : Wire String)
    | .number => (inferInstance : Wire Int64)
    | .status => (inferInstance : Wire RequisitionStatus)
    | .party => (inferInstance : Wire String)
    | .createdAt => (inferInstance : Wire Calendar.Instant)
  absent _ := none
  unsent _ := none
  view requisition
    | .id => requisition.id
    | .number => requisition.number
    | .status => requisition.status
    | .party => requisition.party
    | .createdAt => requisition.createdAt
  isWritten _ _ := true
  build draft := do
    return ⟨← draft .id, ← draft .number, ← draft .status, ← draft .party,
      ← draft .createdAt⟩

instance : Wire Requisition := Requisition.record.toWire

/-- The fields of a stock line's content. Only issued stock has a stock line. -/
inductive Stock.Field where
  | stockLineId
  | batch
  | expiry
  | packSize
  | packs
  | price
deriving DecidableEq

/-- The names of a stock line's fields, given the name of its price. -/
def Stock.Field.name (price : String) : Stock.Field → String
  | .stockLineId => "stock_line_id"
  | .batch => "batch"
  | .expiry => "expiry_date"
  | .packSize => "pack_size"
  | .packs => "number_of_packs"
  | .price => price

def Stock.Field.Value : Stock.Field → Type
  | .stockLineId => String
  | .batch => Option String
  | .expiry => Option Calendar.Date
  | .packSize => UInt32
  | .packs => Decimal.Binary64
  | .price => Decimal.Binary64

@[reducible] def Stock.Field.wire : (field : Stock.Field) → Wire field.Value
  | .stockLineId => (inferInstance : Wire String)
  | .batch => (inferInstance : Wire (Option String))
  | .expiry => (inferInstance : Wire (Option Calendar.Date))
  | .packSize => (inferInstance : Wire UInt32)
  | .packs => (inferInstance : Wire Decimal.Binary64)
  | .price => (inferInstance : Wire Decimal.Binary64)

/-- The values of fields that an object need not name. -/
def Stock.Field.absent : (field : Stock.Field) → Option field.Value
  | .batch => some (none : Option String)
  | .expiry => some (none : Option Calendar.Date)
  | .stockLineId | .packSize | .packs | .price => none

/-- The values of a stock line's fields. -/
def Stock.view (stockLineId : String) (stock : Stock) (price : Decimal.Binary64) :
    (field : Stock.Field) → field.Value
  | .stockLineId => stockLineId
  | .batch => stock.batch
  | .expiry => stock.expiry
  | .packSize => stock.packSize
  | .packs => stock.packs
  | .price => price

/-- The stock that the fields make. -/
def Stock.ofDraft? (draft : (field : Stock.Field) → Option field.Value) : Option Stock := do
  return ⟨← draft .batch, ← draft .expiry, ← draft .packSize, ← draft .packs⟩

/-- Received stock and its cost price. -/
def LineContent.stockInRecord : Record (Stock × Decimal.Binary64) where
  Field := Stock.Field
  sameField := inferInstance
  fields := [.batch, .expiry, .packSize, .packs, .price]
  name := Stock.Field.name "cost_price_per_pack"
  Value := Stock.Field.Value
  wire := Stock.Field.wire
  absent := Stock.Field.absent
  unsent _ := none
  view content := content.1.view "" content.2
  isWritten _ _ := true
  build draft := do return (← Stock.ofDraft? draft, ← draft .price)

/-- Issued stock, the stock line it comes from and its sell price. -/
def LineContent.stockOutRecord : Record (String × Stock × Decimal.Binary64) where
  Field := Stock.Field
  sameField := inferInstance
  fields := [.stockLineId, .batch, .expiry, .packSize, .packs, .price]
  name := Stock.Field.name "sell_price_per_pack"
  Value := Stock.Field.Value
  wire := Stock.Field.wire
  absent := Stock.Field.absent
  unsent _ := none
  view content := content.2.1.view content.1 content.2.2
  isWritten _ _ := true
  build draft := do
    return (← draft .stockLineId, ← Stock.ofDraft? draft, ← draft .price)

/-- The fields of a service. -/
inductive LineContent.ServiceField where
  | total
  | note
deriving DecidableEq

/-- A service: its total and an optional note. -/
def LineContent.serviceRecord : Record (Decimal.Binary64 × Option String) where
  Field := LineContent.ServiceField
  sameField := inferInstance
  fields := [.total, .note]
  name
    | .total => "total_before_tax"
    | .note => "note"
  Value
    | .total => Decimal.Binary64
    | .note => Option String
  wire
    | .total => (inferInstance : Wire Decimal.Binary64)
    | .note => (inferInstance : Wire (Option String))
  absent
    | .total => none
    | .note => some (none : Option String)
  unsent _ := none
  view content
    | .total => content.1
    | .note => content.2
  isWritten _ _ := true
  build draft := do return (← draft .total, ← draft .note)

namespace LineContent

/-- The name of the member that says which record a content is. -/
def tagName : String := "type"

/-- The members of a content, without its tag. -/
def untaggedMembers : LineContent → List (String × Json)
  | .stockIn stock price => stockInRecord.members (stock, price)
  | .stockOut stockLineId stock price =>
      stockOutRecord.members (stockLineId, stock, price)
  | .service total note => serviceRecord.members (total, note)

/-- The content that members make, given its kind. -/
def ofMembers (room : Nat) (members : List (Option String × Json)) :
    LineKind → Except Fault LineContent
  | .stockIn => do
      let (stock, price) ← stockInRecord.ofObject room members .closed
      return .stockIn stock price
  | .stockOut => do
      let (stockLineId, stock, price) ← stockOutRecord.ofObject room members .closed
      return .stockOut stockLineId stock price
  | .service => do
      let (total, note) ← serviceRecord.ofObject room members .closed
      return .service total note

/-- The content that items make, given its kind. -/
def ofItems (room : Nat) (items : List Json) : LineKind → Except Fault LineContent
  | .stockIn => do
      let (stock, price) ← stockInRecord.ofArray room items .closed
      return .stockIn stock price
  | .stockOut => do
      let (stockLineId, stock, price) ← stockOutRecord.ofArray room items .closed
      return .stockOut stockLineId stock price
  | .service => do
      let (total, note) ← serviceRecord.ofArray room items .closed
      return .service total note

/-- The kind that a tag names; a tag is a string. -/
def kindOfTag (tree : Json) : Except Fault LineKind := do
  match LineKind.ofWord? (← decodeString tree) with
  | some kind => .ok kind
  | none => .error .mismatch

/-- Whether a member is a tag. -/
def isTag (member : Option String × Json) : Bool :=
  member.1 = some tagName

end LineContent

/-- A content is read as a whole before its fields are looked at, so all of it
must be readable, fields that do not matter included. -/
instance : Wire LineContent where
  encode content :=
    Json.ofMembers
      ((LineContent.tagName, Json.ofString content.kind.word) :: content.untaggedMembers)
  decode room tree :=
    if !tree.isReadable room then .error (wrongKind tree)
    else
      match tree with
      | .object members _ =>
          match members.filter LineContent.isTag with
          | [tag] => do
              let kind ← LineContent.kindOfTag tag.2
              LineContent.ofMembers (room - 1)
                (members.filter fun member => !LineContent.isTag member) kind
          | _ => .error .mismatch
      | .array (tag :: items) _ => do
          LineContent.ofItems (room - 1) items (← LineContent.kindOfTag tag)
      | _ => .error .mismatch

inductive Line.Field where
  | id
  | shipmentId
  | item
  | content
deriving DecidableEq

def Line.record : Record Line where
  Field := Line.Field
  sameField := inferInstance
  fields := [.id, .shipmentId, .item, .content]
  name
    | .id => "id"
    | .shipmentId => "invoice_id"
    | .item => "item"
    | .content => "detail"
  Value
    | .id => String
    | .shipmentId => String
    | .item => Item
    | .content => LineContent
  wire
    | .id => (inferInstance : Wire String)
    | .shipmentId => (inferInstance : Wire String)
    | .item => (inferInstance : Wire Item)
    | .content => (inferInstance : Wire LineContent)
  absent _ := none
  unsent _ := none
  view line
    | .id => line.id
    | .shipmentId => line.shipmentId
    | .item => line.item
    | .content => line.content
  isWritten _ _ := true
  build draft := do
    return ⟨← draft .id, ← draft .shipmentId, ← draft .item, ← draft .content⟩

instance : Wire Line := Line.record.toWire

inductive Rejection.Field where
  | code
  | message
deriving DecidableEq

def Rejection.record : Record Rejection where
  Field := Rejection.Field
  sameField := inferInstance
  fields := [.code, .message]
  name
    | .code => "code"
    | .message => "message"
  Value
    | .code => RejectionCode
    | .message => String
  wire
    | .code => (inferInstance : Wire RejectionCode)
    | .message => (inferInstance : Wire String)
  absent _ := none
  unsent _ := none
  view rejection
    | .code => rejection.code
    | .message => rejection.message
  isWritten _ _ := true
  build draft := do return ⟨← draft .code, ← draft .message⟩

instance : Wire Rejection := Rejection.record.toWire

end Depot
