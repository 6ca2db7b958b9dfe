import Depot.Proofs.Edit.Rollback
import Mathlib.Data.List.Induction

/-!
Contract: what becomes of a mutation whose steps are called in any order.

A `Trial` is one mutation and the desk that it works on. Its steps are called one after the
other, and those that end it wait for the source; before, between and while they wait,
others do with the desk what they like. A step that comes in the wrong state is refused. The
ones that were accepted tell what state the mutation is in and which rows it keeps.

Owns: trials, their phases, and the answers to every call.
Does not own: edits (`Depot.Proofs.Edit.Course`), beyond their mutations being well used.
-/

namespace Depot

variable {ρ σ : Type}

/-! ### Trials -/

/-- A step of a mutation as it is called. One that ends the mutation waits for the source. -/
inductive Attempt (σ ρ : Type) where
  | apply (change : List ρ → List ρ)
  | commit (world : World σ ρ) (state : σ)
  | rollback (world : World σ ρ) (state : σ)

def Attempt.step : Attempt σ ρ → MutationStep
  | .apply _ => .apply
  | .commit _ _ => .commit
  | .rollback _ _ => .rollback

/-- The moves that a mutation can make. -/
inductive MutationState.Next : MutationState → MutationState → Prop
  | applied : Next .idle .pending
  | committed : Next .pending .committed
  | rolledBack : Next .pending .rolledBack

/-- What happens on a desk where a mutation is tried. -/
inductive Trial.Deed (σ ρ : Type) where
  | call (attempt : Attempt σ ρ)
  /-- Something else than a step of the mutation. -/
  | meanwhile (change : Desk ρ → Desk ρ)

/-- A mutation and the desk that it works on. -/
structure Trial (ρ : Type) where
  desk : Desk ρ
  mutation : Mutation ρ
  /-- The steps that were accepted, the oldest first. -/
  taken : List MutationStep

namespace Trial

def start (key : ListKey) (desk : Desk ρ) : Trial ρ :=
  ⟨desk, .idle key, []⟩

/-- The course of a call on the mutation. -/
def attempt (trial : Trial ρ) : Attempt σ ρ → Course ρ
  | .apply change =>
      match trial.mutation.apply trial.desk.cache change with
      | .error wrong => ⟨[], [], .mutation (.error wrong), trial.desk⟩
      | .ok (cache, mutation) => ⟨[], [], .mutation (.ok mutation), { trial.desk with cache }⟩
  | .commit world state =>
      trial.desk.followCall world state
        (trial.desk.startEnding (trial.mutation.commit trial.desk.cache))
  | .rollback world state =>
      trial.desk.followCall world state
        (trial.desk.startEnding (trial.mutation.rollback trial.desk.cache))

/-- The trial after a call, whose finding is what the mutation has become. -/
def entered (trial : Trial ρ) (step : MutationStep) (course : Course ρ) : Trial ρ :=
  match course.finding with
  | .mutation (.ok mutation) => ⟨course.desk, mutation, trial.taken ++ [step]⟩
  | _ => { trial with desk := course.desk }

def step (trial : Trial ρ) : Deed σ ρ → Trial ρ
  | .call attempt => trial.entered attempt.step (trial.attempt attempt)
  | .meanwhile change => { trial with desk := change trial.desk }

def run (trial : Trial ρ) (deeds : List (Deed σ ρ)) : Trial ρ :=
  deeds.foldl step trial

theorem run_append_singleton (trial : Trial ρ) (deeds : List (Deed σ ρ)) (deed : Deed σ ρ) :
    trial.run (deeds ++ [deed]) = (trial.run deeds).step deed := by
  rw [run, List.foldl_append]
  rfl

/-! ### What is answered -/

/-- A call that is refused: its caller learns which step it was and which state the mutation is
in. The source is asked nothing, nothing is told, and the desk stays as it was. -/
def refusal (trial : Trial ρ) (step : MutationStep) : Course ρ :=
  ⟨[], [], .mutation (.error ⟨step, trial.mutation.state⟩), trial.desk⟩

/-- A call that ends the mutation: the list is marked stale and fetched once. -/
def Ends (trial : Trial ρ) (course : Course ρ) (base : Cache ρ) (state : MutationState) : Prop :=
  ∃ answered last, course =
    ⟨[⟨.fetch trial.mutation.key, (base.beginInvalidate trial.mutation.key).1, answered⟩], [],
      .mutation (.ok ⟨trial.mutation.key, none, state⟩), last⟩

section

variable (trial : Trial ρ)

theorem attempt_refused (attempt : Attempt σ ρ)
    (wrong : trial.mutation.state ≠ attempt.step.from) :
    trial.attempt attempt = trial.refusal attempt.step := by
  have silent : trial.desk.toldSince trial.desk = [] := List.drop_length
  cases attempt with
  | apply change =>
      have refused : ¬trial.mutation.state = MutationStep.apply.from := wrong
      simp only [Trial.attempt, Mutation.apply, Mutation.guarded, if_neg refused]
      rfl
  | commit world state =>
      have refused : ¬trial.mutation.state = MutationStep.commit.from := wrong
      simp only [Trial.attempt, Mutation.commit, Mutation.guarded, if_neg refused,
        Desk.startEnding, Desk.followCall, silent]
      rfl
  | rollback world state =>
      have refused : ¬trial.mutation.state = MutationStep.rollback.from := wrong
      simp only [Trial.attempt, Mutation.rollback, Mutation.guarded, if_neg refused,
        Desk.startEnding, Desk.followCall, silent]
      rfl

theorem attempt_apply (idle : trial.mutation.state = .idle) (change : List ρ → List ρ) :
    trial.attempt (.apply change : Attempt σ ρ) =
      ⟨[], [], .mutation (.ok ⟨trial.mutation.key,
          trial.desk.cache.get? trial.mutation.key, .pending⟩),
        trial.desk.showing trial.mutation.key change⟩ := by
  have allowed : trial.mutation.state = MutationStep.apply.from := idle
  have previous : (trial.desk.cache.update trial.mutation.key change).2 =
      trial.desk.cache.get? trial.mutation.key := trial.desk.cache.update_previous _ change
  simp only [Trial.attempt, Mutation.apply, Mutation.guarded, if_pos allowed, previous]
  rfl

/-- A mutation that is ended fetches its list, whatever the source replies to that. -/
theorem followCall_ending (world : World σ ρ) (state : σ) (desk : Desk ρ) (cache : Cache ρ)
    (mutation : Mutation ρ) (refresh : Refresh) :
    ∃ answered last,
      desk.followCall world state (desk.startEnding (.ok (cache, mutation, refresh))) =
        ⟨[⟨.fetch refresh.key, cache, answered⟩], [], .mutation (.ok mutation), last⟩ := by
  obtain ⟨answered, last, settles⟩ := Desk.follow_settling world state { desk with cache }
    (.mutation (.ok mutation)) refresh
  refine ⟨answered, last, ?_⟩
  have silent : { desk with cache }.toldSince desk = [] := List.drop_length
  simp only [Desk.startEnding, Desk.followCall, settles, silent]
  rfl

theorem attempt_commit (pending : trial.mutation.state = .pending) (world : World σ ρ)
    (state : σ) :
    trial.Ends (trial.attempt (.commit world state)) trial.desk.cache .committed := by
  have allowed : trial.mutation.state = MutationStep.commit.from := pending
  simp only [Trial.attempt, Mutation.commit, Mutation.guarded, if_pos allowed]
  exact followCall_ending ..

theorem attempt_rollback (pending : trial.mutation.state = .pending) (world : World σ ρ)
    (state : σ) :
    trial.Ends (trial.attempt (.rollback world state))
      (trial.mutation.restored trial.desk.cache) .rolledBack := by
  have allowed : trial.mutation.state = MutationStep.rollback.from := pending
  simp only [Trial.attempt, Mutation.rollback, Mutation.guarded, if_pos allowed]
  exact followCall_ending ..

theorem step_apply (idle : trial.mutation.state = .idle) (change : List ρ → List ρ) :
    trial.step (.call (.apply change) : Deed σ ρ) =
      ⟨trial.desk.showing trial.mutation.key change,
        ⟨trial.mutation.key, trial.desk.cache.get? trial.mutation.key, .pending⟩,
        trial.taken ++ [.apply]⟩ :=
  congrArg (trial.entered .apply) (trial.attempt_apply (σ := σ) idle change)

theorem Ends.entered {trial : Trial ρ} {course : Course ρ} {base : Cache ρ}
    {state : MutationState} (ends : trial.Ends course base state) (step : MutationStep) :
    ∃ last, trial.entered step course =
      ⟨last, ⟨trial.mutation.key, none, state⟩, trial.taken ++ [step]⟩ := by
  obtain ⟨answered, last, course⟩ := ends
  exact ⟨last, congrArg (trial.entered step) course⟩

theorem step_commit (pending : trial.mutation.state = .pending) (world : World σ ρ) (state : σ) :
    ∃ last, trial.step (.call (.commit world state)) =
      ⟨last, ⟨trial.mutation.key, none, .committed⟩, trial.taken ++ [.commit]⟩ :=
  (trial.attempt_commit pending world state).entered .commit

theorem step_rollback (pending : trial.mutation.state = .pending) (world : World σ ρ) (state : σ) :
    ∃ last, trial.step (.call (.rollback world state)) =
      ⟨last, ⟨trial.mutation.key, none, .rolledBack⟩, trial.taken ++ [.rollback]⟩ :=
  (trial.attempt_rollback pending world state).entered .rollback

theorem step_refused (attempt : Attempt σ ρ)
    (wrong : trial.mutation.state ≠ attempt.step.from) : trial.step (.call attempt) = trial :=
  congrArg (trial.entered attempt.step) (trial.attempt_refused attempt wrong)

/-- What a deed makes of the mutation, and which step it takes. -/
inductive Stepped : Deed σ ρ → Mutation ρ → List MutationStep → Prop
  | stays (deed : Deed σ ρ) : Stepped deed trial.mutation trial.taken
  | applied (change : List ρ → List ρ) (idle : trial.mutation.state = .idle) :
      Stepped (.call (.apply change))
        ⟨trial.mutation.key, trial.desk.cache.get? trial.mutation.key, .pending⟩
        (trial.taken ++ [.apply])
  | committed (world : World σ ρ) (state : σ) (pending : trial.mutation.state = .pending) :
      Stepped (.call (.commit world state)) ⟨trial.mutation.key, none, .committed⟩
        (trial.taken ++ [.commit])
  | rolledBack (world : World σ ρ) (state : σ) (pending : trial.mutation.state = .pending) :
      Stepped (.call (.rollback world state)) ⟨trial.mutation.key, none, .rolledBack⟩
        (trial.taken ++ [.rollback])

theorem stepped (deed : Deed σ ρ) :
    trial.Stepped deed (trial.step deed).mutation (trial.step deed).taken := by
  cases deed with
  | meanwhile change => exact .stays _
  | call attempt =>
      by_cases right : trial.mutation.state = attempt.step.from
      · cases attempt with
        | apply change =>
            rw [trial.step_apply right]
            exact .applied change right
        | commit world state =>
            obtain ⟨last, ended⟩ := trial.step_commit right world state
            rw [ended]
            exact .committed world state right
        | rollback world state =>
            obtain ⟨last, ended⟩ := trial.step_rollback right world state
            rw [ended]
            exact .rolledBack world state right
      · rw [trial.step_refused attempt right]
        exact .stays _

theorem moves (deed : Deed σ ρ) :
    (trial.step deed).mutation.state = trial.mutation.state ∨
      trial.mutation.state.Next (trial.step deed).mutation.state := by
  have stepped := trial.stepped deed
  generalize (trial.step deed).mutation = mutation at stepped ⊢
  generalize (trial.step deed).taken = taken at stepped
  cases stepped with
  | stays => exact .inl rfl
  | applied change idle =>
      rw [idle]
      exact .inr .applied
  | committed world state pending =>
      rw [pending]
      exact .inr .committed
  | rolledBack world state pending =>
      rw [pending]
      exact .inr .rolledBack

end

/-- How every call on the mutation is answered, and how the mutation can move. -/
structure Answers (trial : Trial ρ) (σ : Type) : Prop where
  moves : ∀ deed : Deed σ ρ, (trial.step deed).mutation.state = trial.mutation.state ∨
    trial.mutation.state.Next (trial.step deed).mutation.state
  refused : ∀ attempt : Attempt σ ρ, trial.mutation.state ≠ attempt.step.from →
    trial.attempt attempt = trial.refusal attempt.step ∧ trial.step (.call attempt) = trial
  applied : trial.mutation.state = .idle → ∀ change,
    trial.attempt (.apply change : Attempt σ ρ) =
      ⟨[], [], .mutation (.ok ⟨trial.mutation.key,
          trial.desk.cache.get? trial.mutation.key, .pending⟩),
        trial.desk.showing trial.mutation.key change⟩
  committed : trial.mutation.state = .pending → ∀ (world : World σ ρ) (state : σ),
    trial.Ends (trial.attempt (.commit world state)) trial.desk.cache .committed
  /-- Without rows to put back a rollback does to the cache what a commit does. -/
  leftAlone : trial.mutation.state = .pending → trial.mutation.snapshot = none →
    ∀ (world : World σ ρ) (state : σ),
      trial.Ends (trial.attempt (.rollback world state)) trial.desk.cache .rolledBack
  putBack : trial.mutation.state = .pending → ∀ rows, trial.mutation.snapshot = some rows →
    ∀ (world : World σ ρ) (state : σ),
      trial.Ends (trial.attempt (.rollback world state))
        (trial.desk.cache.set trial.mutation.key rows) .rolledBack

theorem answers (trial : Trial ρ) : trial.Answers σ where
  moves := trial.moves
  refused := by
    intro attempt wrong
    exact ⟨trial.attempt_refused attempt wrong, trial.step_refused attempt wrong⟩
  applied := trial.attempt_apply
  committed := trial.attempt_commit
  leftAlone := by
    intro pending none world state
    have ends := trial.attempt_rollback pending world state
    rwa [Mutation.restored, none] at ends
  putBack := by
    intro pending rows kept world state
    have ends := trial.attempt_rollback pending world state
    rwa [Mutation.restored, kept] at ends

/-! ### What the mutation has become -/

/-- Where a mutation stands, by the steps of it that were accepted. While it is pending it keeps
the rows from just before the one apply that was accepted. -/
inductive Phase (first : Trial ρ) (deeds : List (Deed σ ρ)) :
    Mutation ρ → List MutationStep → Prop
  | idle : Phase first deeds ⟨first.mutation.key, none, .idle⟩ []
  | pending (early : List (Deed σ ρ)) (change : List ρ → List ρ) (later : List (Deed σ ρ))
      (split : deeds = early ++ .call (.apply change) :: later)
      (accepted : (first.run early).taken = []) :
      Phase first deeds
        ⟨first.mutation.key, (first.run early).desk.cache.get? first.mutation.key, .pending⟩
        [.apply]
  | committed : Phase first deeds ⟨first.mutation.key, none, .committed⟩ [.apply, .commit]
  | rolledBack : Phase first deeds ⟨first.mutation.key, none, .rolledBack⟩ [.apply, .rollback]

namespace Phase

variable {first : Trial ρ} {deeds : List (Deed σ ρ)} {mutation : Mutation ρ}
  {taken : List MutationStep}

theorem longer (phase : first.Phase deeds mutation taken) (deed : Deed σ ρ) :
    first.Phase (deeds ++ [deed]) mutation taken := by
  cases phase with
  | idle => exact .idle
  | pending early change later split accepted =>
      exact .pending early change (later ++ [deed]) (by simp [split]) accepted
  | committed => exact .committed
  | rolledBack => exact .rolledBack

theorem key (phase : first.Phase deeds mutation taken) : mutation.key = first.mutation.key := by
  cases phase <;> rfl

theorem taken_idle (phase : first.Phase deeds mutation taken) (idle : mutation.state = .idle) :
    taken = [] := by
  cases phase with
  | idle => rfl
  | pending | committed | rolledBack => cases idle

theorem taken_pending (phase : first.Phase deeds mutation taken)
    (pending : mutation.state = .pending) : taken = [.apply] := by
  cases phase with
  | pending => rfl
  | idle | committed | rolledBack => cases pending

end Phase

/-- One more deed: a call that is accepted brings the mutation one phase further, anything else
leaves it in its phase. -/
theorem phase_step {first : Trial ρ} {deeds : List (Deed σ ρ)}
    (phase : first.Phase deeds (first.run deeds).mutation (first.run deeds).taken)
    (deed : Deed σ ρ) :
    first.Phase (deeds ++ [deed]) ((first.run deeds).step deed).mutation
      ((first.run deeds).step deed).taken := by
  -- The state in which a call is accepted tells the phase, and with it the steps so far.
  have stepped := (first.run deeds).stepped deed
  generalize ((first.run deeds).step deed).mutation = mutation at stepped ⊢
  generalize ((first.run deeds).step deed).taken = taken at stepped ⊢
  cases stepped with
  | stays => exact phase.longer deed
  | applied change idle =>
      have none := phase.taken_idle idle
      rw [phase.key, none]
      exact .pending deeds change [] rfl none
  | committed world state pending =>
      rw [phase.key, phase.taken_pending pending]
      exact .committed
  | rolledBack world state pending =>
      rw [phase.key, phase.taken_pending pending]
      exact .rolledBack

/-- Whatever is called and whatever others do, the mutation is in the phase that the accepted
steps tell. -/
theorem phase_run (key : ListKey) (desk : Desk ρ) (deeds : List (Deed σ ρ)) :
    (start key desk).Phase deeds ((start key desk).run deeds).mutation
      ((start key desk).run deeds).taken := by
  induction deeds using List.reverseRecOn with
  | nil => exact .idle
  | append_singleton deeds deed inductionHypothesis =>
      rw [run_append_singleton]
      exact phase_step inductionHypothesis deed

/-- A desk with one list, and a source that is out of order. -/
def stocked : Desk Nat := ⟨Cache.empty.set .requisitions [1], []⟩

def silent : World Unit Nat :=
  fun state desk _ => (state, desk, .error .transport)

/-- Of the steps that come too early or too late none is taken. -/
example :
    ((start .requisitions stocked).run
      [.call (.commit silent ()), .call (.apply (· ++ [2])),
        .meanwhile fun desk => { desk with cache := desk.cache.set .requisitions [3] },
        .call (.rollback silent ()), .call (.apply fun _ => [])]).taken = [.apply, .rollback] := by
  cbv

end Trial

/-! ### Mutations in edits -/

/-- The mutation of an edit is used as it should be: to begin with it is applied, and once the
source has been asked for the write it can be ended. -/
structure Desk.UsesWell [Row ρ] (desk : Desk ρ) (request : Request ρ) : Prop where
  applies : ∀ (change : List ρ → List ρ) (wrong : WrongStep),
    (Mutation.idle request.key).apply desk.cache change ≠ .error wrong
  started : (desk.submit request).2 ≠ .finished .rolledBack
  ends : ∀ (shown : Desk ρ) (edit : Edit ρ), desk.submit request = (shown, .writing edit) →
    ∀ (later : Desk ρ) (wrong : WrongStep),
      edit.mutation.commit later.cache ≠ .error wrong ∧
        edit.mutation.rollback later.cache ≠ .error wrong

theorem Desk.usesWell [Row ρ] (desk : Desk ρ) (request : Request ρ) : desk.UsesWell request where
  applies := by
    intro change wrong
    simp [Mutation.apply, Mutation.guarded, Mutation.idle, MutationStep.from]
  started := by
    intro failed
    have opening := desk.opening_submit request
    generalize desk.submit request = result at opening failed
    cases opening with
    | declined severity notice outcome harmless =>
        cases failed
        exact harmless trivial
    | shown change ask success count =>
        rw [begin_eq] at failed
        cases failed
  ends := by
    intro shown edit writing later wrong
    obtain ⟨change, -, mutation⟩ := submit_writing writing
    rw [mutation]
    simp [Mutation.commit, Mutation.rollback, Mutation.guarded, MutationStep.from]

namespace Trial

/-- A mutation goes from idle to pending and from there to one of its ends, by the calls that
come in the right state. It keeps the rows from just before it was applied as long as it is
pending. Every other call is refused and changes nothing, and edits make no such calls. -/
theorem lifecycle [Row ρ] (key : ListKey) (desk : Desk ρ) (deeds : List (Deed σ ρ)) :
    (start key desk).Phase deeds ((start key desk).run deeds).mutation
        ((start key desk).run deeds).taken ∧
      ((start key desk).run deeds).Answers σ ∧
      ∀ request, desk.UsesWell request :=
  ⟨phase_run key desk deeds, answers _, desk.usesWell⟩

end Trial

end Depot
