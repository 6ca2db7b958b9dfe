import Depot.Calendar.Pattern
import Depot.Decimal.Reader
import Depot.Program.Arguments
import Depot.Stock.Words
import Depot.Text.Split
import Depot.View.Sorting

/-!
Contract: values as they are typed on a command line.

Owns: the readings of words, numbers, dates and pack counts, and the messages of
words and pack counts.
Does not own: where the values stand (`Depot.Program.Arguments`).
-/

namespace Depot.Program

/-- The reading of a word, with a message that names it. -/
def readWord {α : Type} (noun : String) (read? : String → Option α) (raw : String) :
    Except String α :=
  match read? raw with
  | some value => .ok value
  | none => .error ("unknown " ++ noun ++ " '" ++ raw ++ "'")

def readDirection : String → Except String Direction :=
  readWord "invoice kind" Direction.read?

def readSortKey : String → Except String SortKey :=
  readWord "sort key" SortKey.read?

def readShipmentStatus : String → Except String ShipmentStatus :=
  readWord "invoice status" ShipmentStatus.read?

def readRequisitionStatus : String → Except String RequisitionStatus :=
  readWord "requisition status" RequisitionStatus.read?

/-- The id of a line and its new pack count, around the first equals sign. -/
def readPackChange (raw : String) : Except String (String × Decimal.Binary64) :=
  match Text.cutAt? '=' raw.toList with
  | none => .error ("expected LINE_ID=PACKS, got '" ++ raw ++ "'")
  | some (id, packs) =>
      match Decimal.readNumber? (Text.trim packs) with
      | none => .error ("'" ++ String.ofList packs ++ "' is not a number")
      | some number =>
          let id := Text.trim id
          if id.isEmpty then .error ("missing line id in '" ++ raw ++ "'")
          else .ok (String.ofList id, number)

def readNumber (raw : String) : Except Usage Int64 :=
  usable? ((Text.readInt64? raw.toList).map Int64.ofInt)

def readPackSize (raw : String) : Except Usage UInt32 :=
  usable? <| (Text.readInt64? raw.toList).bind fun value =>
    if 0 ≤ value ∧ value < Int.pow 2 32 then some (UInt32.ofNat value.toNat) else none

def readDouble (raw : String) : Except Usage Decimal.Binary64 :=
  usable? (Decimal.readNumber? raw.toList)

def readDay (raw : String) : Except Usage Calendar.Date :=
  usable? (Calendar.readDate? raw.toList)

def readTruth (raw : String) : Except Usage Bool :=
  match raw with
  | "true" => .ok true
  | "false" => .ok false
  | _ => .error .wrong

/-- Text that may be anything. -/
def readText (raw : String) : Except Usage String := .ok raw

end Depot.Program
