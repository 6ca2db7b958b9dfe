import Depot.Screen.Basic

/-!
Contract: the lines of one shipment.

Lines are shown one by one or gathered by item, in an order of the user's
choice. A locked shipment can be looked at but not changed. Ticks belong to
lines or to items, whichever are shown.

Owns: the screen, what it shows and what it asks for.
Does not own: the edits (`Depot.Edit.Basic`).
-/

namespace Depot

structure ShipmentScreen where
  header : Shipment
  selection : Selection
  grouped : Bool
  sorting : Sorting

namespace ShipmentScreen

def opened (header : Shipment) : ShipmentScreen :=
  ⟨header, .empty, false, .byName⟩

def key (screen : ShipmentScreen) : ListKey :=
  .shipment screen.header.direction screen.header.number

/-- Whether the lines can only be looked at. -/
def isDisabled (screen : ShipmentScreen) : Bool :=
  screen.header.linesLocked

/-- Which lines may be deleted. -/
def eligibility (screen : ShipmentScreen) : Eligibility Line :=
  .linesOf screen.header.direction

/-- The screen with another header. Ticks stay if it is the same shipment's. -/
def withHeader (screen : ShipmentScreen) (header : Shipment) : ShipmentScreen :=
  { screen with
    header
    selection := if header.id = screen.header.id then screen.selection else .empty }

/-- The screen with lines gathered by item or not. Ticks stay if nothing
changes. -/
def withGrouped (screen : ShipmentScreen) (grouped : Bool) : ShipmentScreen :=
  { screen with
    grouped
    selection := if grouped = screen.grouped then screen.selection else .empty }

def withSorting (screen : ShipmentScreen) (sorting : Sorting) : ShipmentScreen :=
  { screen with sorting }

def lines (screen : ShipmentScreen) (rows : List Line) : List Line :=
  screen.sorting.sortLines rows

def groups (screen : ShipmentScreen) (rows : List Line) : List ItemGroup :=
  let groups := ItemGroup.ofLines rows
  if screen.sorting = .byName then groups else ItemGroup.sortGroups screen.sorting groups

def serviceLines (screen : ShipmentScreen) (rows : List Line) : List Line :=
  (screen.lines rows).filter Line.isService

/-- The step from the item with an id to the one that is shown after it. -/
def nextItem (screen : ShipmentScreen) (itemId : String) (rows : List Line) : NextItem :=
  ItemGroup.nextItem itemId (screen.groups rows)

/-- The first line of the item after the one with an id. -/
def nextLine? (screen : ShipmentScreen) (itemId : String) (rows : List Line) : Option Line :=
  (screen.nextItem itemId rows).line?

def cached (screen : ShipmentScreen) (cache : Cache Line) : List Line :=
  (cache.get? screen.key).getD []

/-- What is shown of the lines, for the selection to be read in. -/
def view (screen : ShipmentScreen) (rows : List Line) : RowsView Line :=
  let lines := screen.lines rows
  if screen.grouped then .grouped ((screen.groups lines).map ItemGroup.rowGroup)
  else .flat lines

/-- The deletion of the selected lines, or of all lines of the selected items. -/
def removal (screen : ShipmentScreen) (cache : Cache Line) : Removal Line where
  key := screen.key
  view := screen.view (screen.cached cache)
  selection := screen.selection
  disabled := screen.isDisabled
  eligibility := screen.eligibility
  subject := .lines

/-- The line that a pack count changes: the first one with the id that is no
service. -/
def lineWithPacks? (rows : List Line) (change : String × Decimal.Binary64) : Option Line :=
  (rows.find? fun line => line.id = change.1 && !line.isService).map fun line =>
    line.withPacks change.2

/-- The storing of new pack counts. Ids that name no stock line are passed over. -/
def packUpdate (screen : ShipmentScreen) (changes : List (String × Decimal.Binary64))
    (cache : Cache Line) : Update Line where
  key := screen.key
  rows := changes.filterMap (lineWithPacks? (screen.cached cache))
  disabled := screen.isDisabled
  subject := .lines

/-- The key that a line has in a selection. -/
def tickKey (screen : ShipmentScreen) (line : Line) : String :=
  if screen.grouped then line.item.id else line.id

/-- The ticks of lines and items that the cache still holds. -/
def keptSelection (screen : ShipmentScreen) (cache : Cache Line) : Selection :=
  match cache.get? screen.key with
  | none => .empty
  | some rows => screen.selection.retain (rows.map screen.tickKey)

instance : Screen ShipmentScreen Line where
  key := ShipmentScreen.key
  selection := ShipmentScreen.selection
  withSelection screen selection := { screen with selection }
  removal := removal
  keptSelection := keptSelection

end ShipmentScreen

end Depot
