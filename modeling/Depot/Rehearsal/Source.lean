import Depot.Cache.Ask
import Depot.Stock.Row
import Depot.Keyed

/-!
Contract: a source of rows that follows a script.

The source holds rows under keys and replies as it was told to: with a fault or
truly, at once or behind a gate. It takes the rows of a fetch when it is asked,
and changes its rows when it replies to a write; of several changed rows with
one id it stores the first. Gates are queued for a kind of
question; the next question of that kind takes the first of them and waits until
it is open.

Owns: the script, gates, the log of questions and the replies.
Does not own: the calls that ask (`Depot.Rehearsal.Basic`).
-/

namespace Depot.Rehearsal

inductive AskKind where
  | fetch
  | remove
  | update
deriving DecidableEq, Repr

namespace AskKind

def all : List AskKind := [.fetch, .remove, .update]

def word : AskKind → String
  | .fetch => "fetch"
  | .remove => "remove"
  | .update => "update"

def ofWord? (word : String) : Option AskKind :=
  all.find? (·.word = word)

end AskKind

def kindOf {ρ : Type} : Ask ρ → AskKind
  | .fetch _ => .fetch
  | .remove _ => .remove
  | .update _ => .update

/-- A source that follows a script. Gates are numbered as they are made. -/
structure Source (ρ : Type) where
  lists : Keyed ListKey (List ρ)
  /-- The fault that the fetch of a list meets. -/
  fetchFault : ListKey → Option SourceFault
  /-- The fault that writes meet. -/
  writeFault : Option SourceFault
  /-- The gates that no question has taken yet, the first one first. -/
  queued : List (AskKind × Nat)
  /-- The closed gates that can be opened, by name. -/
  closed : Keyed String Nat
  nextGate : Nat
  /-- Every question so far, the oldest first. -/
  asked : List (Ask ρ)

namespace Source

variable {ρ : Type}

def empty : Source ρ :=
  ⟨Keyed.empty, fun _ => none, none, [], Keyed.empty, 0, []⟩

def rows (source : Source ρ) (key : ListKey) : List ρ :=
  (source.lists.get? key).getD []

def withRows (source : Source ρ) (key : ListKey) (rows : List ρ) : Source ρ :=
  { source with lists := source.lists.put key rows }

def isOpen (source : Source ρ) (gate : Nat) : Bool :=
  source.closed.items.all fun item => item.2 ≠ gate

/-- Queue a closed gate for the next question of a kind. An older gate of the
same name can no longer be closed and so is open. -/
def hold (source : Source ρ) (kind : AskKind) (name : String) : Source ρ :=
  { source with
    queued := source.queued ++ [(kind, source.nextGate)]
    closed := source.closed.put name source.nextGate
    nextGate := source.nextGate + 1 }

def release (source : Source ρ) (name : String) : Source ρ :=
  { source with closed := source.closed.erase name }

/-- The queue without the first gate of a kind, and that gate. -/
def takeGate (kind : AskKind) : List (AskKind × Nat) → List (AskKind × Nat) × Option Nat
  | [] => ([], none)
  | first :: queued =>
      if first.1 = kind then (queued, some first.2)
      else
        let (others, gate) := takeGate kind queued
        (first :: others, gate)

/-- A question that waits for its reply. -/
structure Pending (ρ : Type) where
  gate : Option Nat
  /-- The rows that a fetch found. -/
  found : List ρ

def take (source : Source ρ) (ask : Ask ρ) : Source ρ × Pending ρ :=
  let (queued, gate) := takeGate (kindOf ask) source.queued
  let found := match ask with
    | .fetch key => source.rows key
    | .remove _ | .update _ => []
  ({ source with queued, asked := source.asked ++ [ask] }, ⟨gate, found⟩)

def isReady (source : Source ρ) (pending : Pending ρ) : Bool :=
  match pending.gate with
  | none => true
  | some gate => source.isOpen gate

def mapLists (source : Source ρ) (change : List ρ → List ρ) : Source ρ :=
  { source with lists := source.lists.mapValues change }

/-- The number of rows in all lists. -/
def size (source : Source ρ) : Nat :=
  (source.lists.items.map fun item => item.2.length).foldr (· + ·) 0

/-- The rows, each replaced by the first changed row with its id. -/
def storing [Row ρ] (changed rows : List ρ) : List ρ :=
  rows.map fun row => (Rows.find? changed (Row.id row)).getD row

def reply [Row ρ] (source : Source ρ) (pending : Pending ρ) :
    (ask : Ask ρ) → Source ρ × ask.Reply
  | .fetch key =>
      match source.fetchFault key with
      | some fault => (source, .error fault)
      | none => (source, .ok pending.found)
  | .remove targets =>
      match source.writeFault with
      | some fault => (source, .error fault)
      | none =>
          let changed := source.mapLists (Rows.without (targets.map Target.id))
          (changed, .ok (source.size - changed.size))
  | .update rows =>
      match source.writeFault with
      | some fault => (source, .error fault)
      | none => (source.mapLists (storing rows), .ok rows.length)

end Source

end Depot.Rehearsal
