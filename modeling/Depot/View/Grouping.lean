import Depot.Keyed
import Depot.View.Sorting

/-!
Contract: the lines of a shipment gathered by item.

Lines with one item id form a group, named after the item of its first line.
Groups are ordered by the item's name, code and id, or by their first lines.

Owns: groups, their orders, and the step from one item to the next.
Does not own: the order of lines (`Depot.View.Sorting`).
-/

namespace Depot

/-- Lines that share an item. -/
structure ItemGroup where
  item : Item
  lines : List Line
deriving DecidableEq

namespace ItemGroup

/-- The order of items: name, then code, then id. -/
def compareItems (left right : Item) : Ordering :=
  (compare left.name right.name).then
    ((compare left.code right.code).then (compare left.id right.id))

/-- Groups while they are gathered, and the places of the groups of item ids. -/
structure Gathering where
  index : Keyed String Nat
  groups : List ItemGroup

/-- One more line: in its item's group, or in a new last one. -/
def Gathering.add (gathering : Gathering) (line : Line) : Gathering :=
  match gathering.index.get? line.item.id with
  | some place =>
      { gathering with
        groups := gathering.groups.modify place fun group =>
          { group with lines := group.lines ++ [line] } }
  | none =>
      ⟨gathering.index.put line.item.id gathering.groups.length,
        gathering.groups ++ [⟨line.item, [line]⟩]⟩

/-- The groups of lines, in the order in which their items first occur. -/
def gather (lines : List Line) : List ItemGroup :=
  (lines.foldl Gathering.add ⟨Keyed.empty, []⟩).groups

/-- The groups of lines, in the order of their items. -/
def ofLines (lines : List Line) : List ItemGroup :=
  (gather lines).mergeSort fun left right => compareItems left.item right.item ≠ .gt

/-- The order of two groups by their first lines; empty groups come last. -/
def compareGroups (sorting : Sorting) (left right : ItemGroup) : Ordering :=
  match left.lines, right.lines with
  | first :: _, second :: _ => sorting.compareLines first second
  | _ :: _, [] => .lt
  | [], _ :: _ => .gt
  | [], [] => .eq

def sortGroups (sorting : Sorting) (groups : List ItemGroup) : List ItemGroup :=
  groups.mergeSort fun left right => compareGroups sorting left right ≠ .gt

/-- The first line of the group after the one with an item id. There is none
after the last group, before an empty one, and for an unknown item. -/
def next? (itemId : String) : List ItemGroup → Option Line
  | [] => none
  | group :: groups =>
      if group.item.id = itemId then groups.head?.bind fun after => after.lines.head?
      else next? itemId groups

end ItemGroup

/-- What the step from one item to the next finds. -/
structure NextItem where
  line? : Option Line
  disabled : Bool
deriving DecidableEq

/-- The step on from an item. Where there is no line it is disabled. -/
def ItemGroup.nextItem (itemId : String) (groups : List ItemGroup) : NextItem :=
  let line? := next? itemId groups
  ⟨line?, line?.isNone⟩

end Depot
