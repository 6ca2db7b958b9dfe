import Depot.Edit.Basic

/-!
Contract: calls that wait for the source.

A call runs until it needs the source and goes on with the reply. It is one of
four: a plain fetch, the refresh of a list, an edit that waits for its write, or
a mutation that waits for the refresh that ends it. `start` functions run the
first part; `resume` takes a reply. Each of them is one step on the desk, and
any other step may come between two of them. Every reply takes a call closer to
its end: `rank` counts the questions that it may still ask.

Owns: the calls, what they ask, their findings, and runs with nothing in between.
Does not own: who replies, and when (`Depot.Rehearsal`).
-/

namespace Depot

/-- What a finished call has to show. -/
inductive Finding (ρ : Type) where
  | rows (rows : Except SourceFault (List ρ))
  | mutation (mutation : Except WrongStep (Mutation ρ))
  | outcome (outcome : Outcome)

/-- A call that waits for the source. -/
inductive Call (ρ : Type) where
  /-- The rows of a list, past the cache. -/
  | fetching (key : ListKey)
  /-- The refresh of a list. -/
  | refreshing (refresh : Refresh)
  /-- The write of an edit. -/
  | writing (edit : Edit ρ)
  /-- The refresh that ends something whose finding is known. -/
  | settling (finding : Finding ρ) (refresh : Refresh)

inductive Call.Progress (ρ : Type) where
  | waiting (call : Call ρ)
  | finished (finding : Finding ρ)

namespace Call

variable {ρ : Type}

def ask : Call ρ → Ask ρ
  | .fetching key => .fetch key
  | .refreshing refresh => .fetch refresh.key
  | .writing edit => edit.ask
  | .settling _ refresh => .fetch refresh.key

def Progress.ofEdit : Edit.Progress ρ → Progress ρ
  | .writing edit => .waiting (.writing edit)
  | .settling outcome refresh => .waiting (.settling (.outcome outcome) refresh)
  | .finished outcome => .finished (.outcome outcome)

/-- Go on with the source's reply. -/
def resume (desk : Desk ρ) : (call : Call ρ) → call.ask.Reply → Desk ρ × Progress ρ
  | .fetching _, reply => (desk, .finished (.rows reply))
  | .refreshing refresh, reply =>
      let (cache, rows) := desk.cache.land refresh reply
      ({ desk with cache }, .finished (.rows rows))
  | .writing edit, reply =>
      let (after, progress) := desk.replied edit reply
      (after, Progress.ofEdit progress)
  | .settling finding refresh, reply => (desk.settled refresh reply, .finished finding)

end Call

namespace Desk

variable {ρ : Type}

def startRefresh (desk : Desk ρ) (key : ListKey) : Desk ρ × Call.Progress ρ :=
  let (cache, refresh) := desk.cache.begin key
  ({ desk with cache }, .waiting (.refreshing refresh))

/-- Start to mark the list under a key stale and to refresh it. -/
def startInvalidate (desk : Desk ρ) (key : ListKey) : Desk ρ × Call.Progress ρ :=
  let (cache, refresh) := desk.cache.beginInvalidate key
  ({ desk with cache }, .waiting (.refreshing refresh))

/-- Find the list under a key, or start to refresh it when it is absent or
stale. -/
def startEnsure (desk : Desk ρ) (key : ListKey) : Desk ρ × Call.Progress ρ :=
  match desk.cache.fresh? key with
  | some rows => (desk, .finished (.rows (.ok rows)))
  | none => desk.startRefresh key

def startEdit (started : Desk ρ × Edit.Progress ρ) : Desk ρ × Call.Progress ρ :=
  (started.1, .ofEdit started.2)

/-- Start to end a mutation by a step that may be refused. -/
def startEnding (desk : Desk ρ)
    (ending : Except WrongStep (Cache ρ × Mutation ρ × Refresh)) :
    Desk ρ × Call.Progress ρ :=
  match ending with
  | .error wrong => (desk, .finished (.mutation (.error wrong)))
  | .ok (cache, mutation, refresh) =>
      ({ desk with cache }, .waiting (.settling (.mutation (.ok mutation)) refresh))

end Desk

/-! ### Runs -/

/-- The number of times that a call still asks the source. -/
def Call.rank {ρ : Type} : Call ρ → Nat
  | .writing _ => 2
  | .fetching _ | .refreshing _ | .settling _ _ => 1

/-- A write is replied to once. -/
theorem Desk.replied_ne_writing {ρ α : Type} (desk : Desk ρ) (edit next : Edit ρ)
    (reply : Except SourceFault α) : (desk.replied edit reply).2 ≠ .writing next := by
  unfold Desk.replied
  cases reply <;> simp only <;> split <;> simp

/-- A call that goes on has fewer questions left. -/
theorem Call.rank_resume {ρ : Type} (desk : Desk ρ) (call next : Call ρ)
    (reply : call.ask.Reply) (waits : (call.resume desk reply).2 = .waiting next) :
    next.rank < call.rank := by
  cases call with
  | fetching key => simp [Call.resume] at waits
  | refreshing refresh => simp [Call.resume] at waits
  | settling finding refresh => simp [Call.resume] at waits
  | writing edit =>
      simp only [Call.resume] at waits
      cases progress : (desk.replied edit reply).2 with
      | writing other => exact absurd progress (desk.replied_ne_writing edit other reply)
      | settling outcome refresh =>
          rw [progress] at waits
          simp only [Progress.ofEdit, Progress.waiting.injEq] at waits
          subst waits
          simp [Call.rank]
      | finished outcome =>
          rw [progress] at waits
          simp [Progress.ofEdit] at waits

/-- Run a call to its end. -/
def Call.run {ρ σ : Type} (source : σ → (ask : Ask ρ) → σ × ask.Reply) (state : σ)
    (desk : Desk ρ) (call : Call ρ) : (σ × Desk ρ) × Finding ρ :=
  let (after, reply) := source state call.ask
  let resumed := call.resume desk reply
  match _progress : resumed.2 with
  | .finished finding => ((after, resumed.1), finding)
  | .waiting next => run source after resumed.1 next
termination_by call.rank
decreasing_by exact Call.rank_resume _ _ _ _ _progress

/-- Run a call to its end from where its first part left it. -/
def Desk.run {ρ σ : Type} (source : σ → (ask : Ask ρ) → σ × ask.Reply) (state : σ)
    (started : Desk ρ × Call.Progress ρ) : (σ × Desk ρ) × Finding ρ :=
  match started with
  | (desk, .finished finding) => ((state, desk), finding)
  | (desk, .waiting call) => call.run source state desk

end Depot
