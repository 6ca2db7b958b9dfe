import Depot.Wire.Basic

/-!
Contract: records with named fields as JSON objects and arrays.

A `Record` lists the fields of a type with their names and values. The record
is written as an object with its fields in order. It is read from an object with
its members in any order, unknown ones skipped and known ones at most once, or
from an array of the fields' values in order. A field may have a value for when
an object does not name it, and one for when an array ends before it.

Owns: the description of records and both readings.
Does not own: the records themselves (`Depot.Wire.Stock`, `Depot.Wire.Request`).
-/

namespace Depot.Wire

/-- The fields of a type. -/
structure Record (α : Type) where
  Field : Type
  sameField : DecidableEq Field
  /-- The fields in the order in which they are written. -/
  fields : List Field
  name : Field → String
  Value : Field → Type
  wire : (field : Field) → Wire (Value field)
  /-- The value of a field that an object does not name. -/
  absent : (field : Field) → Option (Value field)
  /-- The value of a field that an array ends before. -/
  unsent : (field : Field) → Option (Value field)
  view : α → (field : Field) → Value field
  isWritten : α → Field → Bool
  build : ((field : Field) → Option (Value field)) → Option α

namespace Record

variable {α : Type}

/-- Values for some of the fields. -/
abbrev Draft (record : Record α) : Type :=
  (field : record.Field) → Option (record.Value field)

def blank (record : Record α) : record.Draft :=
  fun _ => none

def put (record : Record α) (draft : record.Draft) (field : record.Field)
    (value : record.Value field) : record.Draft :=
  fun other =>
    match record.sameField field other with
    | isTrue same => some (same ▸ value)
    | isFalse _ => draft other

def field? (record : Record α) (name : String) : Option record.Field :=
  record.fields.find? fun field => record.name field = name

/-- The values that an object's members give. -/
def readMembers (record : Record α) (room : Nat) (draft : record.Draft) :
    List (Option String × Json) → Except Fault record.Draft
  | [] => .ok draft
  | (none, _) :: _ => .error .malformed
  | (some key, tree) :: members =>
      match record.field? key with
      | none =>
          if tree.isWhole then readMembers record room draft members
          else .error .malformed
      | some field =>
          if (draft field).isSome then .error .mismatch
          else do
            let value ← (record.wire field).decode room tree
            readMembers record room (record.put draft field value) members

/-- The values that an array's items give to fields, in order. -/
def readItems (record : Record α) (room : Nat) (draft : record.Draft) :
    List record.Field → List Json → Json.Ending → Except Fault record.Draft
  | [], [], .closed => .ok draft
  | [], _, _ => .error .malformed
  | field :: fields, item :: items, ending => do
      let value ← (record.wire field).decode room item
      readItems record room (record.put draft field value) fields items ending
  | _ :: _, [], .cut => .error .malformed
  | field :: fields, [], .closed =>
      match record.unsent field with
      | some value => readItems record room (record.put draft field value) fields [] .closed
      | none => .error .mismatch

/-- The record of the values, with those of absent fields filled in. -/
def finish (record : Record α) (draft : record.Draft) : Except Fault α :=
  match record.build fun field => (draft field).or (record.absent field) with
  | some value => .ok value
  | none => .error .mismatch

/-- The record that an object's members give. -/
def ofObject (record : Record α) (room : Nat)
    (members : List (Option String × Json)) (ending : Json.Ending) : Except Fault α := do
  let draft ← record.readMembers room record.blank members
  match ending with
  | .cut => .error .malformed
  | .closed => record.finish draft

/-- The record that an array's items give. -/
def ofArray (record : Record α) (room : Nat)
    (items : List Json) (ending : Json.Ending) : Except Fault α := do
  record.finish (← record.readItems room record.blank record.fields items ending)

/-- The members that a value is written as. -/
def members (record : Record α) (value : α) : List (String × Json) :=
  (record.fields.filter (record.isWritten value)).map fun field =>
    (record.name field, (record.wire field).encode (record.view value field))

/-- The written form of a record. -/
@[reducible] def toWire (record : Record α) : Wire α where
  encode value := Json.ofMembers (record.members value)
  decode room tree :=
    match tree, room with
    | .object members ending, room + 1 => record.ofObject room members ending
    | .array items ending, room + 1 => record.ofArray room items ending
    | .object _ _, 0 | .array _ _, 0 => .error .malformed
    | _, _ => .error (wrongKind tree)

end Record

end Depot.Wire
