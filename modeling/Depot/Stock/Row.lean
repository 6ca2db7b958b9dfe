import Depot.Stock.Record

/-!
Contract: what the three kinds of records have in common as rows of a list.

A row is addressed by its id and, where it belongs to another record, by that
record's id. A `Target` names one row that is to be deleted. An id that occurs
twice addresses the first row when one is looked up, and every row when rows are
dropped or replaced. Among replacements with one id the last one counts.

Owns: the class of rows, targets, and the lookup, dropping and replacing of rows.
Does not own: where lists are kept (`Depot.Cache.Basic`).
-/

namespace Depot

/-- A row named for deletion, with the record it belongs to. -/
structure Target where
  id : String
  parentId : Option String
deriving DecidableEq, Repr

/-- Records that lists are made of. -/
class Row (ρ : Type) where
  /-- The id that addresses the row. -/
  id : ρ → String
  /-- The id of the record that the row belongs to. -/
  parentId : ρ → Option String
  /-- Equality of rows, numbers compared by value. -/
  same : ρ → ρ → Bool

instance : Row Line where
  id := Line.id
  parentId line := some line.shipmentId
  same := Line.same

instance : Row Shipment where
  id := Shipment.id
  parentId _ := none
  same left right := left = right

instance : Row Requisition where
  id := Requisition.id
  parentId _ := none
  same left right := left = right

def Row.target {ρ : Type} [Row ρ] (row : ρ) : Target :=
  ⟨Row.id row, Row.parentId row⟩

end Depot

namespace Depot.Rows

/-! ### Lists of rows -/

variable {ρ : Type} [Row ρ]

def find? (rows : List ρ) (id : String) : Option ρ :=
  rows.find? fun row => Row.id row = id

def has (rows : List ρ) (id : String) : Bool :=
  (find? rows id).isSome

/-- The rows whose ids are not among the given ones. -/
def without (ids : List String) (rows : List ρ) : List ρ :=
  rows.filter fun row => !ids.contains (Row.id row)

/-- The rows, each replaced by the last replacement with its id. -/
def withReplacements (replacements : List ρ) (rows : List ρ) : List ρ :=
  rows.map fun row => (find? replacements.reverse (Row.id row)).getD row

/-- Whether two lists have equal rows, numbers compared by value. -/
def same : List ρ → List ρ → Bool
  | [], [] => true
  | left :: lefts, right :: rights => Row.same left right && same lefts rights
  | _, _ => false

end Depot.Rows
