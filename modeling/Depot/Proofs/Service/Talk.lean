import Depot.Proofs.Service.Requests

/-!
Contract: requests about lines as the database hears them.

A request asks one question after the other and then hands over a batch, if at all. Between
two of these the database may change, so that a request is more than its answer on a
database at rest. A talk is a request cut where it turns to the database: what it asks, and
what it makes of each answer. On a database at rest a talk ends as the request is answered.

Owns: talks, their steps, and that talks are the requests.
Does not own: talks that take turns (`Depot.Proofs.Service.Turns`).
-/

namespace Depot.Service

open Database

/-- What is left of a request: its answer, a question with what follows from it, or a batch. -/
inductive Talk where
  | ended (answer : Answer Nat)
  | askLine (id : String) (next : Except Fault (Option Line) → Talk)
  | askShipment (id : String) (next : Except Fault (Option Shipment) → Talk)
  | delete (ids : List String)
  | recount (changes : List (String × Decimal.Binary64))

namespace Talk

/-- A batch of deletions, and its answer. -/
def runDelete (database : Database) (ids : List String) : Database × Answer Nat :=
  runChecked database (.ok ()) (database.deleteLines ids) batchRejection

/-- A batch of pack counts, and its answer. -/
def runRecount (database : Database) (changes : List (String × Decimal.Binary64)) :
    Database × Answer Nat :=
  runChecked database (.ok ()) (database.updatePacks changes) internal

/-- The database and the talk after the talk has turned to the database once. -/
def step (database : Database) : Talk → Database × Talk
  | .ended answer => (database, .ended answer)
  | .askLine id next => (database, next (database.lineById id))
  | .askShipment id next => (database, next (database.shipmentById id))
  | .delete ids => (runDelete database ids).map id .ended
  | .recount changes => (runRecount database changes).map id .ended

/-- The end of a talk on a database that nobody else changes. -/
def finish (database : Database) : Talk → Database × Answer Nat
  | .ended answer => (database, answer)
  | .askLine id next => (next (database.lineById id)).finish database
  | .askShipment id next => (next (database.shipmentById id)).finish database
  | .delete ids => runDelete database ids
  | .recount changes => runRecount database changes

/-- Go on with a value, or end with the rejection. -/
def given {α : Type} (answer : Answer α) (next : α → Talk) : Talk :=
  match answer with
  | .error rejection => .ended (.error rejection)
  | .ok value => next value

/-- Ask for a line and for its shipment, and go on if the line may be edited. -/
def editable (id shipmentId : String) (next : Line → Talk) : Talk :=
  .askLine id fun read =>
    given (found ("line " ++ id ++ " not found") read) fun line =>
      if line.shipmentId ≠ shipmentId then
        .ended (.error
          ⟨.validation, "line " ++ id ++ " does not belong to invoice " ++ shipmentId⟩)
      else
        .askShipment line.shipmentId fun read =>
          given (found ("invoice " ++ shipmentId ++ " not found") read) fun shipment =>
            if shipment.linesLocked then
              .ended (.error ⟨.forbidden, shipmentTitle shipment.direction shipment.number ++
                " can no longer be edited"⟩)
            else next line

/-- Check targets one after the other, and delete the ids. The shipment of a line is asked
for once more, for its direction. -/
def deletions (ids : List String) : List Target → Talk
  | [] => .delete ids
  | target :: targets =>
      given (parentOf target) fun shipmentId =>
        editable target.id shipmentId fun line =>
          .askShipment line.shipmentId fun read =>
            given (found ("invoice " ++ line.shipmentId ++ " not found") read) fun shipment =>
              if line.isService || line.kind = shipment.direction.stockKind then
                deletions ids targets
              else
                .ended (.error
                  ⟨.validation, "line " ++ line.id ++ " is a " ++ line.kind.word ++
                    " line, not part of a " ++ shipment.direction.word ++ " shipment"⟩)

/-- Check updates one after the other, and store the counts. -/
def updates (changes : List (String × Decimal.Binary64)) : List PackUpdate → Talk
  | [] => .recount changes
  | update :: others =>
      if !update.packs.isFinite || update.packs.isBelowZero then
        .ended (.error ⟨.validation, "line " ++ update.id ++ " has an invalid number of packs " ++
          String.ofList (Decimal.plainText update.packs)⟩)
      else
        editable update.id update.shipmentId fun line =>
          if line.isService then
            .ended (.error ⟨.validation, "service line " ++ line.id ++ " carries no packs"⟩)
          else updates changes others

end Talk

/-- A request about lines. -/
inductive Request where
  | deletion (targets : List Target)
  | update (updates : List PackUpdate)

namespace Request

/-- The answer to a request on a database at rest. -/
def answer (database : Database) : Request → Database × Answer Nat
  | .deletion targets => deleteLines database targets
  | .update updates => updateLines database updates

/-- What the request says to the database. -/
def talk : Request → Talk
  | .deletion targets =>
      .given (requireTargets targets) fun _ => .deletions (distinctIds targets) targets
  | .update updates =>
      .given (requireSome "no lines to update" updates) fun _ =>
        .updates (updates.map fun update => (update.id, update.packs)) updates

end Request

/-! ### A database at rest -/

namespace Talk

variable {α β : Type} {database : Database}

/-- Go on with a value, or leave the database with the rejection. -/
def proceed (database : Database) (answer : Answer α) (next : α → Database × Answer Nat) :
    Database × Answer Nat :=
  match answer with
  | .error rejection => (database, .error rejection)
  | .ok value => next value

theorem proceed_bind (answer : Answer α) (check : α → Answer β)
    (next : β → Database × Answer Nat) :
    proceed database (answer >>= check) next =
      proceed database answer fun value => proceed database (check value) next := by
  cases answer <;> rfl

theorem finish_given (answer : Answer α) (next : α → Talk) :
    (given answer next).finish database =
      proceed database answer fun value => (next value).finish database := by
  cases answer <;> rfl

theorem runChecked_eq (checked : Answer Unit) (batch : Database × Except Fault Nat)
    (rejection : Fault → Rejection) :
    runChecked database checked batch rejection =
      proceed database checked fun _ => runChecked database (.ok ()) batch rejection := by
  cases checked <;> rfl

theorem finish_editable (id shipmentId : String) (next : Line → Talk) :
    (editable id shipmentId next).finish database =
      proceed database (editableLine database id shipmentId) fun editable =>
        (next editable.1).finish database := by
  rw [editable, finish, finish_given, editableLine, proceed_bind]
  congr 1
  funext line
  by_cases mine : line.shipmentId = shipmentId
  · rw [if_neg (not_not.mpr mine), if_neg (not_not.mpr mine), finish, finish_given, proceed_bind]
    congr 1
    funext shipment
    cases shipment.linesLocked <;> rfl
  · rw [if_pos mine, if_pos mine]
    rfl

theorem finish_deletions (ids : List String) (targets : List Target) :
    (deletions ids targets).finish database =
      proceed database (checkAll (checkLineDeletion database) targets) fun _ =>
        runDelete database ids := by
  induction targets with
  | nil => rfl
  | cons target targets inductionHypothesis =>
      rw [deletions, finish_given, checkAll, proceed_bind, checkLineDeletion, proceed_bind]
      congr 1
      funext shipmentId
      rw [finish_editable, proceed_bind]
      cases granted : editableLine database target.id shipmentId with
      | error rejection => rfl
      | ok pair =>
          -- The second question about the shipment is answered as the first one was.
          obtain ⟨line, shipment⟩ := pair
          obtain ⟨-, rfl, stored, -⟩ := (editableLine_eq_ok ..).mp granted
          have again := (found_eq_ok ("invoice " ++ line.shipmentId ++ " not found") _ _).mpr stored
          show (given (found _ (database.shipmentById line.shipmentId)) _).finish database = _
          rw [finish_given, again]
          by_cases fits : (line.isService || line.kind = shipment.direction.stockKind) = true
          · simp only [proceed, fits, ↓reduceIte]
            exact inductionHypothesis
          · simp only [proceed, fits]
            rfl

theorem finish_updates (changes : List (String × Decimal.Binary64)) (entries : List PackUpdate) :
    (updates changes entries).finish database =
      proceed database (checkAll (checkPackUpdate database) entries) fun _ =>
        runRecount database changes := by
  induction entries with
  | nil => rfl
  | cons update others inductionHypothesis =>
      rw [updates, checkAll, proceed_bind, checkPackUpdate]
      split
      next => rfl
      next =>
        rw [finish_editable, proceed_bind]
        congr 1
        funext pair
        obtain ⟨line, shipment⟩ := pair
        cases service : line.isService with
        | true =>
            simp only [service, ↓reduceIte]
            rfl
        | false =>
            simp only [service, Bool.false_eq_true, ↓reduceIte]
            exact inductionHypothesis

end Talk

/-- A talk on a database at rest is the request. -/
theorem Request.finish_talk (database : Database) (request : Request) :
    request.talk.finish database = request.answer database := by
  cases request with
  | deletion targets =>
      rw [talk, Talk.finish_given, answer, deleteLines, Talk.runChecked_eq,
        checkLineDeletions, Talk.proceed_bind]
      congr 1
      funext some
      exact Talk.finish_deletions (distinctIds targets) targets
  | update updates =>
      rw [talk, Talk.finish_given, answer, updateLines, Talk.runChecked_eq,
        checkPackUpdates, Talk.proceed_bind]
      congr 1
      funext some
      exact Talk.finish_updates _ updates

end Depot.Service
