import Depot.Cache.Basic

/-!
Contract: one write that is shown before the source has confirmed it.

A mutation writes into the cache first and keeps what was there. When the source
confirms the write, the old rows are forgotten; when it refuses, they are put
back. Both ways end with a refresh, so that the cache comes to hold what the
source has. Without a list in the cache nothing is written and nothing is put
back.

A mutation goes from idle to pending, and from there to committed or rolled
back. Any other step is refused and changes nothing.

Owns: the mutation's states and steps.
Does not own: the calls that go through all of them (`Depot.Edit.Basic`).
-/

namespace Depot

/-- How far a mutation has come. -/
inductive MutationState where
  | idle
  | pending
  | committed
  | rolledBack
deriving DecidableEq, Repr

def MutationState.word : MutationState → String
  | .idle => "idle"
  | .pending => "pending"
  | .committed => "committed"
  | .rolledBack => "rolled_back"

def MutationState.title : MutationState → String
  | .idle => "Idle"
  | .pending => "Pending"
  | .committed => "Committed"
  | .rolledBack => "RolledBack"

inductive MutationStep where
  | apply
  | commit
  | rollback
deriving DecidableEq, Repr

def MutationStep.words : MutationStep → String
  | .apply => "apply"
  | .commit => "commit"
  | .rollback => "roll back"

/-- The state in which a step is allowed. -/
def MutationStep.from : MutationStep → MutationState
  | .apply => .idle
  | .commit => .pending
  | .rollback => .pending

structure WrongStep where
  step : MutationStep
  state : MutationState
deriving DecidableEq, Repr

def WrongStep.message (wrong : WrongStep) : String :=
  "cannot " ++ wrong.step.words ++ " a mutation that is " ++ wrong.state.title

/-- A write to the list under a key. -/
structure Mutation (ρ : Type) where
  key : ListKey
  /-- The rows to put back. -/
  snapshot : Option (List ρ)
  state : MutationState

namespace Mutation

variable {ρ : Type}

def idle (key : ListKey) : Mutation ρ := ⟨key, none, .idle⟩

/-- The result, provided that the step is allowed now. -/
def guarded {α : Type} (mutation : Mutation ρ) (step : MutationStep) (result : α) :
    Except WrongStep α :=
  if mutation.state = step.from then .ok result else .error ⟨step, mutation.state⟩

/-- Write the change into the cache and keep what was there. -/
def apply (mutation : Mutation ρ) (cache : Cache ρ) (change : List ρ → List ρ) :
    Except WrongStep (Cache ρ × Mutation ρ) :=
  let (changed, previous) := cache.update mutation.key change
  mutation.guarded .apply
    (changed, { mutation with snapshot := previous, state := .pending })

/-- Forget what was there and begin to refresh. -/
def commit (mutation : Mutation ρ) (cache : Cache ρ) :
    Except WrongStep (Cache ρ × Mutation ρ × Refresh) :=
  let (begun, refresh) := cache.beginInvalidate mutation.key
  mutation.guarded .commit
    (begun, { mutation with snapshot := none, state := .committed }, refresh)

/-- The cache with what was there before, if there was a list. -/
def restored (mutation : Mutation ρ) (cache : Cache ρ) : Cache ρ :=
  match mutation.snapshot with
  | none => cache
  | some rows => cache.set mutation.key rows

/-- Put back what was there and begin to refresh. -/
def rollback (mutation : Mutation ρ) (cache : Cache ρ) :
    Except WrongStep (Cache ρ × Mutation ρ × Refresh) :=
  let (begun, refresh) := (mutation.restored cache).beginInvalidate mutation.key
  mutation.guarded .rollback
    (begun, { mutation with snapshot := none, state := .rolledBack }, refresh)

end Mutation

end Depot
