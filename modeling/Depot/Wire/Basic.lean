import Depot.Calendar.Pattern
import Depot.Json.Printer
import Depot.Json.Reader

/-!
Contract: values as JSON trees, and back.

`Wire` pairs the tree that a value is written as with the reading of trees. A
reading may accept more than is ever written. It fails with the first trouble in
the order of the text: `malformed` where the text is no JSON, nests too deep or
has a number or string that cannot be read, `mismatch` where it says something
else than was wanted.

Owns: the class, the leaves, lists, options and words.
Does not own: records with named fields (`Depot.Wire.Record`).
-/

namespace Depot

/-- Why a tree could not be read as a value. -/
inductive Wire.Fault where
  | malformed
  | mismatch
deriving DecidableEq, Repr

/-- Values with a written form. `room` is the number of levels to which
containers may still nest. -/
class Wire (α : Type) where
  encode : α → Json
  decode : (room : Nat) → Json → Except Wire.Fault α

namespace Wire

/-- The levels to which the containers of a document may nest. -/
def wholeRoom : Nat := 127

/-- The fault of a value of the wrong kind. A scalar is read before its kind is
judged, a container is not. -/
def wrongKind (tree : Json) : Fault :=
  match tree with
  | .broken => .malformed
  | .string none => .malformed
  | .number numeral => if numeral.value = .tooLarge then .malformed else .mismatch
  | _ => .mismatch

def decodeString (tree : Json) : Except Fault String :=
  match tree with
  | .string (some text) => .ok text
  | _ => .error (wrongKind tree)

/-- The integer of a numeral, when it is in the range. -/
def decodeInt (least greatest : Int) (tree : Json) : Except Fault Int :=
  match tree with
  | .number numeral =>
      match numeral.value with
      | .integer value =>
          if least ≤ value ∧ value ≤ greatest then .ok value else .error .mismatch
      | .double _ => .error .mismatch
      | .tooLarge => .error .malformed
  | _ => .error (wrongKind tree)

/-- The double of a numeral; integers are rounded. -/
def decodeDouble (tree : Json) : Except Fault Decimal.Binary64 :=
  match tree with
  | .number numeral =>
      match numeral.value with
      | .integer value => .ok (Decimal.Binary64.ofInt value)
      | .double value => .ok value
      | .tooLarge => .error .malformed
  | _ => .error (wrongKind tree)

instance : Wire String where
  encode := Json.ofString
  decode _ := decodeString

instance : Wire Bool where
  encode := Json.bool
  decode _ tree :=
    match tree with
    | .bool value => .ok value
    | _ => .error (wrongKind tree)

instance : Wire Decimal.Binary64 where
  encode := Json.ofBinary64
  decode _ := decodeDouble

instance : Wire Int64 where
  encode number := Json.ofInt number.toInt
  decode _ tree := (decodeInt (-(Int.pow 2 63)) (Int.pow 2 63 - 1) tree).map Int64.ofInt

instance : Wire UInt32 where
  encode number := Json.ofNat number.toNat
  decode _ tree := (decodeInt 0 (Int.pow 2 32 - 1) tree).map fun value => UInt32.ofNat value.toNat

instance : Wire UInt64 where
  encode number := Json.ofNat number.toNat
  decode _ tree := (decodeInt 0 (Int.pow 2 64 - 1) tree).map fun value => UInt64.ofNat value.toNat

/-- A value written as a text, where only some texts are values. -/
@[reducible] def ofText {α : Type} (text : α → String) (read? : String → Option α) : Wire α where
  encode value := Json.ofString (text value)
  decode _ tree := do
    match read? (← decodeString tree) with
    | some value => .ok value
    | none => .error .mismatch

instance : Wire Calendar.Date :=
  ofText (fun date => String.ofList date.text) fun text =>
    Calendar.readDate? text.toList

instance : Wire Calendar.Instant :=
  ofText (fun moment => String.ofList moment.text) fun text =>
    Calendar.readInstant? text.toList

instance {α : Type} [Wire α] : Wire (Option α) where
  encode value := value.elim .null encode
  decode room tree :=
    match tree with
    | .null => .ok none
    | _ => (decode room tree).map some

def decodeItems {α : Type} (decode : Json → Except Fault α) :
    List Json → Json.Ending → Except Fault (List α)
  | [], .closed => .ok []
  | [], .cut => .error .malformed
  | item :: items, ending => do
      let value ← decode item
      let values ← decodeItems decode items ending
      return value :: values

instance {α : Type} [Wire α] : Wire (List α) where
  encode values := Json.ofList (values.map encode)
  decode room tree :=
    match tree, room with
    | .array _ _, 0 => .error .malformed
    | .array items ending, room + 1 => decodeItems (decode room) items ending
    | _, _ => .error (wrongKind tree)

/-- A word of an enumeration: written as a string, read from a string or from an
object whose one member has the word as its name and null as its value. -/
@[reducible] def ofWords {α : Type} (word : α → String) (ofWord? : String → Option α) : Wire α where
  encode value := Json.ofString (word value)
  decode room tree :=
    let known := fun (name : String) => match ofWord? name with
      | some value => Except.ok value
      | none => .error Fault.mismatch
    match tree, room with
    | .string (some name), _ => known name
    | .object ((some name, .null) :: []) .closed, _ + 1 => known name
    | .object ((some name, value) :: _) _, _ + 1 => do
        let _ ← known name
        .error (if value.isWhole then .mismatch else .malformed)
    | _, _ => .error .malformed

/-- The value that a whole text says. -/
def read (α : Type) [Wire α] (text : String) : Except Fault α :=
  decode wholeRoom (Json.read text)

/-- The value that a text begins with, whatever follows it. -/
def readBeginning (α : Type) [Wire α] (text : String) : Except Fault α :=
  decode wholeRoom (Json.beginning text)

def write {α : Type} [Wire α] (value : α) : String :=
  (encode value).text

end Wire

end Depot
