import Depot.Stock.Rejection
import Depot.Stock.Row
import Depot.Stock.Words
import Depot.Text.Character
import Depot.Text.Split

/-!
Contract: lists of rows, and what a source of them is asked and replies.

A client keeps three kinds of lists: the shipments of a direction, the lines of
one shipment, and the requisitions. A `Scope` is a family of them. A source is
asked for a list, for a deletion or for a change, and may be kept from answering.

Owns: keys, scopes, the three questions, their replies, and faults.
Does not own: what is kept under a key, who asks (`Depot.Cache.Basic`,
`Depot.Edit`) and who answers (`Depot.Http.Client`).
-/

namespace Depot

/-! ### Keys -/

/-- The name of a list of rows. -/
inductive ListKey where
  /-- The shipments of a direction. -/
  | shipments (direction : Direction)
  /-- The lines of the shipment with a number. -/
  | shipment (direction : Direction) (number : Int64)
  /-- The requisitions. -/
  | requisitions
deriving DecidableEq

namespace ListKey

def text : ListKey → String
  | .shipments direction => "invoices/" ++ direction.word
  | .shipment direction number =>
      "invoices/" ++ direction.word ++ "/" ++ String.ofList (Text.intText number.toInt)
  | .requisitions => "requisitions"

def ofText? (text : String) : Option ListKey :=
  match Text.pieces '/' text.toList with
  | [name] => if String.ofList name = "requisitions" then some .requisitions else none
  | [name, direction] =>
      if String.ofList name = "invoices" then
        (Direction.ofWord? (String.ofList direction)).map .shipments
      else none
  | [name, direction, number] =>
      if String.ofList name = "invoices" then do
        let direction ← Direction.ofWord? (String.ofList direction)
        let number ← Text.readInt64? number
        return .shipment direction (Int64.ofInt number)
      else none
  | _ => none

end ListKey

/-- A family of lists. -/
inductive Scope where
  | all
  /-- The shipments of a direction, and the lines of each of them. -/
  | direction (direction : Direction)
  | requisitions
deriving DecidableEq, Repr

def ListKey.isIn (key : ListKey) : Scope → Bool
  | .all => true
  | .direction wanted =>
      match key with
      | .shipments direction => direction = wanted
      | .shipment direction _ => direction = wanted
      | .requisitions => false
  | .requisitions =>
      match key with
      | .requisitions => true
      | _ => false

/-! ### Faults -/

/-- What kept a source from answering. -/
inductive SourceFault where
  /-- The request or its answer was lost or could not be read. -/
  | transport
  /-- The request was turned down for a reason. -/
  | rejected (rejection : Rejection)
  /-- The request was turned down with no more than a status. -/
  | status (number : Nat)
  /-- The source is out of order. -/
  | unavailable (message : String)
  /-- The source has no such list. -/
  | unsupported (key : ListKey)
deriving DecidableEq

/-- The message of a fault. The words for a lost request are its transport's,
so there is none for it here. -/
def SourceFault.message? : SourceFault → Option String
  | .transport => none
  | .rejected rejection =>
      some ("server rejected request (" ++ rejection.code.title ++ "): " ++ rejection.message)
  | .status number =>
      some ("server responded with status " ++ String.ofList (Text.natText number))
  | .unavailable message => some ("data source unavailable: " ++ message)
  | .unsupported key => some ("query " ++ key.text ++ " is not served by this data source")

/-! ### Questions -/

/-- A question to a source of rows. -/
inductive Ask (ρ : Type) where
  /-- The rows of a list. -/
  | fetch (key : ListKey)
  /-- The deletion of rows. -/
  | remove (targets : List Target)
  /-- The storing of changed rows. -/
  | update (rows : List ρ)

/-- What a question is answered with: rows, or a number of rows. -/
abbrev Ask.Answer {ρ : Type} : Ask ρ → Type
  | .fetch _ => List ρ
  | .remove _ => Nat
  | .update _ => Nat

/-- An answer, or what kept the source from giving one. -/
abbrev Ask.Reply {ρ : Type} (ask : Ask ρ) : Type :=
  Except SourceFault ask.Answer

end Depot
