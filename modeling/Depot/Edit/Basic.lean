import Depot.Edit.Mutation
import Depot.Edit.Notice
import Depot.Stock.Row
import Depot.View.Selection

/-!
Contract: deletions and updates as the user asks for them.

An edit is checked first; of rows that are to be deleted, each has to keep a rule.
If it passes, its outcome is shown in the cache at once, and the source is asked.
The reply decides whether the mutation is committed or rolled back; the refresh
that follows has no say in the outcome. The user is told one thing, as soon as it
is known.

An edit takes up to three steps: `remove` or `update` starts it, `replied` takes
the source's reply to the write, `settled` takes the reply to the refresh. Other
steps on the cache may come in between.

Owns: the rules, the checks, the order of effects, and the outcomes.
Does not own: the single write (`Depot.Edit.Mutation`), and the lock of a
shipment (`Depot.Stock.Record`).
-/

namespace Depot

/-! ### Rules -/

/-- A rule for rows and the reason that is given when a row breaks it. -/
structure Eligibility (ρ : Type) where
  reason : String
  allows : ρ → Bool

namespace Eligibility

/-- Every row may be deleted. -/
def any {ρ : Type} : Eligibility ρ := ⟨"", fun _ => true⟩

/-- What stock of a kind is called in reasons. -/
def stockNoun : LineKind → String
  | .stockIn => "received stock"
  | .stockOut => "issued stock"
  | .service => "service"

/-- Of a shipment's lines, services and the kind of stock that the shipment
holds. -/
def linesOf (direction : Direction) : Eligibility Line :=
  ⟨"only " ++ stockNoun direction.stockKind ++ " and service lines can be deleted here",
    fun line => line.isService || line.kind = direction.stockKind⟩

def newShipments : Eligibility Shipment :=
  ⟨"only new shipments can be deleted", fun shipment => shipment.status = .new⟩

def draftRequisitions : Eligibility Requisition :=
  ⟨"only draft requisitions can be deleted", fun requisition => requisition.status = .draft⟩

/-- The reason in quotes, as far as a log shows a rule. -/
def summary {ρ : Type} (rule : Eligibility ρ) : String :=
  "Eligibility \x7b reason: \"" ++ rule.reason ++ "\", .. \x7d"

end Eligibility

/-! ### Edits -/

/-- What a client holds: the cache, and what its user was told, oldest first. -/
structure Desk (ρ : Type) where
  cache : Cache ρ
  notifications : List Notification

def Desk.empty {ρ : Type} : Desk ρ := ⟨Cache.empty, []⟩

def Desk.tell {ρ : Type} (desk : Desk ρ) (severity : Severity) (notice : Notice) : Desk ρ :=
  { desk with notifications := desk.notifications ++ [⟨severity, notice⟩] }

/-- What came of an edit. -/
inductive Outcome where
  /-- There was nothing to do. -/
  | skipped (notice : Notice)
  /-- A row may not be deleted. -/
  | rejected (notice : Notice)
  | committed (count : Nat)
  | rolledBack
deriving DecidableEq, Repr

/-- The deletion of the selected rows of a view. -/
structure Removal (ρ : Type) where
  key : ListKey
  view : RowsView ρ
  selection : Selection
  disabled : Bool
  eligibility : Eligibility ρ
  subject : Subject

/-- The storing of changed rows. -/
structure Update (ρ : Type) where
  key : ListKey
  rows : List ρ
  disabled : Bool
  subject : Subject

/-- An edit that is shown in the cache and waits for the source's reply. -/
structure Edit (ρ : Type) where
  mutation : Mutation ρ
  /-- What the source was asked. -/
  ask : Ask ρ
  /-- What the user is told when the source agrees. -/
  success : Notice
  /-- The number of rows. -/
  count : Nat

inductive Edit.Progress (ρ : Type) where
  /-- Waiting for the reply to the write. -/
  | writing (edit : Edit ρ)
  /-- Waiting for the reply to the refresh. -/
  | settling (outcome : Outcome) (refresh : Refresh)
  | finished (outcome : Outcome)

namespace Desk

variable {ρ : Type}

/-- An edit that ends before it began. -/
def skip (desk : Desk ρ) (notice : Notice) : Desk ρ × Edit.Progress ρ :=
  (desk.tell .info notice, .finished (.skipped notice))

/-- An edit that fails before the source is asked. -/
def fail (desk : Desk ρ) : Desk ρ × Edit.Progress ρ :=
  (desk.tell .error .mutationFailed, .finished .rolledBack)

/-- Show a change in the cache and ask the source for it. -/
def begin (desk : Desk ρ) (key : ListKey) (change : List ρ → List ρ) (ask : Ask ρ)
    (success : Notice) (count : Nat) : Desk ρ × Edit.Progress ρ :=
  match (Mutation.idle key).apply desk.cache change with
  | .error _ => desk.fail
  | .ok (cache, mutation) => ({ desk with cache }, .writing ⟨mutation, ask, success, count⟩)

def update [Row ρ] (desk : Desk ρ) (request : Update ρ) : Desk ρ × Edit.Progress ρ :=
  if request.disabled then desk.skip .disabled
  else if request.rows.isEmpty then desk.skip .selectRowsFirst
  else
    desk.begin request.key (Rows.withReplacements request.rows) (.update request.rows)
      (.saved request.subject request.rows.length) request.rows.length

def remove [Row ρ] (desk : Desk ρ) (request : Removal ρ) : Desk ρ × Edit.Progress ρ :=
  if request.disabled then desk.skip .disabled
  else
    let rows := request.view.selectedRows request.selection
    if rows.isEmpty then desk.skip .selectRowsFirst
    else if rows.all request.eligibility.allows then
      desk.begin request.key (Rows.without (rows.map Row.id)) (.remove (rows.map Row.target))
        (.deleted request.subject rows.length) rows.length
    else
      let notice := Notice.cannotDelete request.subject request.eligibility.reason
      (desk.tell .info notice, .finished (.rejected notice))

/-- Take the source's reply to the write. -/
def replied {α : Type} (desk : Desk ρ) (edit : Edit ρ) (reply : Except SourceFault α) :
    Desk ρ × Edit.Progress ρ :=
  match reply with
  | .ok _ =>
      let told := desk.tell .success edit.success
      match edit.mutation.commit told.cache with
      | .error _ => (told, .finished (.committed edit.count))
      | .ok (cache, _, refresh) =>
          ({ told with cache }, .settling (.committed edit.count) refresh)
  | .error _ =>
      let told := desk.tell .error .mutationFailed
      match edit.mutation.rollback told.cache with
      | .error _ => (told, .finished .rolledBack)
      | .ok (cache, _, refresh) => ({ told with cache }, .settling .rolledBack refresh)

/-- Take the source's reply to the refresh that ends an edit. -/
def settled (desk : Desk ρ) (refresh : Refresh) (reply : Except SourceFault (List ρ)) : Desk ρ :=
  { desk with cache := (desk.cache.land refresh reply).1 }

end Desk

end Depot
