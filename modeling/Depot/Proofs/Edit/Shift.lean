import Depot.Edit.Call
import Depot.Proofs.Cache.Traffic

/-!
Contract: a desk with any number of calls, and the source that they wait for.

A call is entered, waits, and is resumed with a reply, perhaps to wait once more;
each entry and each reply is one step, and steps of different calls come in any
order. A fetch brings what the source held when it began, whenever its reply comes.
A write takes effect at the source at some moment while it waits, or not at all,
and is confirmed or refused later.

Owns: shifts, their steps, and what the steps of a call do to the cache.
Does not own: what holds when all calls have ended (`Depot.Proofs.Edit.Convergence`).
-/

namespace Depot

variable {ρ : Type}

/-- The answer of a source that holds these rows and changed so many. -/
def Ask.answer (rows : ListKey → List ρ) (count : Nat) : (ask : Ask ρ) → ask.Answer
  | .fetch key => rows key
  | .remove _ | .update _ => count

/-- A call that waits, and what the source held when it began to. -/
structure Waiting (ρ : Type) where
  call : Call ρ
  seen : ListKey → List ρ

/-- A desk, the source, the calls that wait, and the findings of those that have
ended. -/
structure Shift (ρ : Type) where
  desk : Desk ρ
  source : ListKey → List ρ
  waiting : List (Waiting ρ)
  findings : List (Finding ρ)

/-- One step of a shift. A place is one among the calls that wait. -/
inductive Shift.Step (ρ : Type) where
  | ensure (key : ListKey)
  | refresh (key : ListKey)
  | invalidate (key : ListKey)
  | remove (request : Removal ρ)
  | save (request : Update ρ)
  /-- Somebody else writes to the cache. -/
  | set (key : ListKey) (rows : List ρ)
  | change (key : ListKey) (change : List ρ → List ρ)
  | drop (key : ListKey)
  | clear
  /-- Somebody else changes the source. -/
  | amend (source : ListKey → List ρ)
  /-- The write at a place takes effect at the source. -/
  | serve (place : Nat) (source : ListKey → List ρ)
  /-- The source answers the call at a place. -/
  | answer (place count : Nat)
  /-- The source refuses the write at a place. -/
  | refuse (place : Nat) (fault : SourceFault)
  /-- The source fails the fetch at a place. -/
  | lose (place : Nat) (fault : SourceFault)

def Call.IsWriting : Call ρ → Prop
  | .writing _ => True
  | .fetching _ | .refreshing _ | .settling _ _ => False

instance (call : Call ρ) : Decidable call.IsWriting :=
  match call with
  | .writing _ => isTrue trivial
  | .fetching _ | .refreshing _ | .settling _ _ => isFalse id

def Call.refresh? : Call ρ → Option Refresh
  | .refreshing refresh | .settling _ refresh => some refresh
  | .fetching _ | .writing _ => none

/-- Whether the finding is that of a mutation which was committed or rolled back. -/
def Finding.IsEnding : Finding ρ → Prop
  | .outcome (.committed _) | .outcome .rolledBack => True
  | .outcome (.skipped _) | .outcome (.rejected _) | .rows _ | .mutation _ => False

namespace Shift

/-- A shift that begins, with no call waiting. -/
def start (desk : Desk ρ) (source : ListKey → List ρ) : Shift ρ := ⟨desk, source, [], []⟩

/-- The shift after a call went on to where it stands now. -/
def proceed (shift : Shift ρ) (gone : Desk ρ × Call.Progress ρ) : Shift ρ :=
  match gone.2 with
  | .waiting call =>
      { shift with desk := gone.1, waiting := shift.waiting ++ [⟨call, shift.source⟩] }
  | .finished finding =>
      { shift with desk := gone.1, findings := shift.findings ++ [finding] }

def without (shift : Shift ρ) (place : Nat) : Shift ρ :=
  { shift with waiting := shift.waiting.eraseIdx place }

def withCache (shift : Shift ρ) (cache : Cache ρ) : Shift ρ :=
  { shift with desk := { shift.desk with cache } }

def fail (shift : Shift ρ) (place : Nat) (waiting : Waiting ρ) (fault : SourceFault) : Shift ρ :=
  (shift.without place).proceed (waiting.call.resume shift.desk (.error fault))

/-- Take one step. A step that names a call that is not there does nothing. -/
def step [Row ρ] (shift : Shift ρ) : Shift.Step ρ → Shift ρ
  | .ensure key => shift.proceed (shift.desk.startEnsure key)
  | .refresh key => shift.proceed (shift.desk.startRefresh key)
  | .invalidate key => shift.proceed (shift.desk.startInvalidate key)
  | .remove request => shift.proceed (Desk.startEdit (shift.desk.remove request))
  | .save request => shift.proceed (Desk.startEdit (shift.desk.update request))
  | .set key rows => shift.withCache (shift.desk.cache.set key rows)
  | .change key change => shift.withCache (shift.desk.cache.update key change).1
  | .drop key => shift.withCache (shift.desk.cache.remove key).1
  | .clear => shift.withCache shift.desk.cache.clear
  | .amend source => { shift with source }
  | .serve place source =>
      match shift.waiting[place]? with
      | none => shift
      | some waiting => if waiting.call.IsWriting then { shift with source } else shift
  | .answer place count =>
      match shift.waiting[place]? with
      | none => shift
      | some waiting =>
          (shift.without place).proceed
            (waiting.call.resume shift.desk (.ok (waiting.call.ask.answer waiting.seen count)))
  | .refuse place fault =>
      match shift.waiting[place]? with
      | none => shift
      | some waiting => if waiting.call.IsWriting then shift.fail place waiting fault else shift
  | .lose place fault =>
      match shift.waiting[place]? with
      | none => shift
      | some waiting => if waiting.call.IsWriting then shift else shift.fail place waiting fault

def run [Row ρ] (shift : Shift ρ) (steps : List (Shift.Step ρ)) : Shift ρ :=
  steps.foldl step shift

end Shift

/-! ### The steps of calls -/

namespace Desk

variable (desk : Desk ρ)

theorem startRefresh_eq (key : ListKey) :
    desk.startRefresh key =
      ({ desk with cache := (desk.cache.begin key).1 },
        .waiting (.refreshing (desk.cache.begin key).2)) := rfl

theorem startInvalidate_eq (key : ListKey) :
    desk.startInvalidate key =
      ({ desk with cache := (desk.cache.beginInvalidate key).1 },
        .waiting (.refreshing (desk.cache.beginInvalidate key).2)) := rfl

/-- An edit shows its change in the cache and waits. -/
theorem begin_eq (key : ListKey) (change : List ρ → List ρ) (ask : Ask ρ) (success : Notice)
    (count : Nat) :
    desk.begin key change ask success count =
      ({ desk with cache := (desk.cache.update key change).1 },
        .writing ⟨⟨key, (desk.cache.update key change).2, .pending⟩, ask, success, count⟩) := by
  simp [begin, Mutation.apply, Mutation.idle, Mutation.guarded, MutationStep.from]

/-- How an edit of the list under a key starts. -/
inductive Opening (key : ListKey) : Desk ρ × Edit.Progress ρ → Prop
  /-- It is turned down, and the user is told why. -/
  | declined (severity : Severity) (notice : Notice) (outcome : Outcome)
      (harmless : ¬(Finding.outcome outcome : Finding ρ).IsEnding) :
      Opening key (desk.tell severity notice, .finished outcome)
  | shown (change : List ρ → List ρ) (ask : Ask ρ) (success : Notice) (count : Nat) :
      Opening key (desk.begin key change ask success count)

theorem opening_update [Row ρ] (request : Update ρ) :
    desk.Opening request.key (desk.update request) := by
  unfold update
  split
  · exact .declined _ _ _ id
  · split
    · exact .declined _ _ _ id
    · exact .shown _ _ _ _

theorem opening_remove [Row ρ] (request : Removal ρ) :
    desk.Opening request.key (desk.remove request) := by
  unfold remove
  split
  · exact .declined _ _ _ id
  · simp only
    split
    · exact .declined _ _ _ id
    · split
      · exact .shown _ _ _ _
      · exact .declined _ _ _ id

/-- When the reply to a write comes, the old rows are put back or not, and the list
is marked stale and refreshed. -/
theorem replied_pending {α : Type} (edit : Edit ρ) (pending : edit.mutation.state = .pending)
    (reply : Except SourceFault α) :
    ∃ notifications outcome base,
      (Finding.outcome outcome : Finding ρ).IsEnding ∧
        (base = desk.cache ∨ ∃ rows, base = desk.cache.set edit.mutation.key rows) ∧
        desk.replied edit reply =
          (⟨(base.beginInvalidate edit.mutation.key).1, notifications⟩,
            .settling outcome (base.beginInvalidate edit.mutation.key).2) := by
  cases reply with
  | ok answer =>
      refine ⟨(desk.tell .success edit.success).notifications, .committed edit.count, desk.cache,
        trivial, .inl rfl, ?_⟩
      simp [replied, Mutation.commit, Mutation.guarded, pending, MutationStep.from, tell]
  | error fault =>
      refine ⟨(desk.tell .error .mutationFailed).notifications, .rolledBack,
        edit.mutation.restored desk.cache, trivial, ?_, ?_⟩
      · unfold Mutation.restored
        split
        · exact .inl rfl
        · exact .inr ⟨_, rfl⟩
      · simp [replied, Mutation.rollback, Mutation.guarded, pending, MutationStep.from, tell]

end Desk

end Depot
