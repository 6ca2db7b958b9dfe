import Depot.Stock.Record

/-!
Contract: the order in which lines are shown.

Lines are compared by one of six properties. Texts compare by their characters,
numbers of packs by the total order of their words, and a line without the
property comes before every line with it. A descending order turns the
comparison round, so that lines which compare equal keep their order in both
directions.

Owns: the properties, the comparison and the sorting of lines.
Does not own: groups (`Depot.View.Grouping`).
-/

namespace Depot

/-- The property that lines are compared by. -/
inductive SortKey where
  | itemName
  | itemCode
  | batch
  | expiry
  | packSize
  | packs
deriving DecidableEq, Repr

namespace SortKey

def all : List SortKey := [.itemName, .itemCode, .batch, .expiry, .packSize, .packs]

def word : SortKey → String
  | .itemName => "item_name"
  | .itemCode => "item_code"
  | .batch => "batch"
  | .expiry => "expiry_date"
  | .packSize => "pack_size"
  | .packs => "number_of_packs"

/-- The property's short word; some have none. -/
def shortWord? : SortKey → Option String
  | .itemName => some "name"
  | .itemCode => some "code"
  | .expiry => some "expiry"
  | .packs => some "packs"
  | .batch | .packSize => none

/-- The lenient reading of a word: hyphens stand for underscores, and short words
are known. -/
def read? (raw : String) : Option SortKey :=
  let plain := String.ofList <| (plainWord raw).toList.map fun character =>
    if character = '-' then '_' else character
  all.find? fun key => key.word = plain || key.shortWord? = some plain

end SortKey

/-- The order of two properties, where a missing one comes first. -/
def compareMissingFirst {α : Type} (compareValues : α → α → Ordering) :
    Option α → Option α → Ordering
  | none, none => .eq
  | none, some _ => .lt
  | some _, none => .gt
  | some left, some right => compareValues left right

def SortKey.compareLines (key : SortKey) (left right : Line) : Ordering :=
  match key with
  | .itemName => compare left.item.name right.item.name
  | .itemCode => compare left.item.code right.item.code
  | .batch => compareMissingFirst compare left.content.batch? right.content.batch?
  | .expiry =>
      compareMissingFirst Calendar.Date.order left.content.expiry? right.content.expiry?
  | .packSize =>
      compareMissingFirst compare left.content.packSize? right.content.packSize?
  | .packs =>
      compareMissingFirst Decimal.Binary64.totalCompare
        left.content.packs? right.content.packs?

structure Sorting where
  key : SortKey
  descending : Bool
deriving DecidableEq, Repr

namespace Sorting

def byName : Sorting := ⟨.itemName, false⟩

instance : Inhabited Sorting := ⟨byName⟩

def compareLines (sorting : Sorting) (left right : Line) : Ordering :=
  let ordering := sorting.key.compareLines left right
  if sorting.descending then ordering.swap else ordering

/-- The lines in order; lines that compare equal stay in theirs. -/
def sortLines (sorting : Sorting) (lines : List Line) : List Line :=
  lines.mergeSort fun left right => sorting.compareLines left right ≠ .gt

end Sorting

end Depot
