import Depot.Edit.Call
import Depot.Rehearsal.Source
import Depot.Screen.Basic

/-!
Contract: calls played against a scripted source.

A rehearsal has a desk, a source, and named mutations and screens. A call runs
as soon as it is started, until it is finished or waits at a closed gate. When a
gate opens, the waiting calls go on, the oldest first. A mutation or screen is
busy while a call on it waits.

Owns: the order in which calls go on.
Does not own: what a call does (`Depot.Edit.Call`) and what a source replies
(`Depot.Rehearsal.Source`).
-/

namespace Depot

namespace Rehearsal

/-- The desk and the source that a call works on. -/
structure Stage (ρ : Type) where
  desk : Desk ρ
  source : Source ρ

/-- One of the things that a call does side by side. -/
inductive Leg (ρ : Type) where
  | waiting (call : Call ρ) (pending : Source.Pending ρ)
  | finished (finding : Finding ρ)

def Leg.finding? {ρ : Type} : Leg ρ → Option (Finding ρ)
  | .waiting _ _ => none
  | .finished finding => some finding

namespace Stage

variable {ρ : Type} [Row ρ]

/-- Let a call go on until it is finished or waits at a closed gate. -/
def advance (stage : Stage ρ) (call : Call ρ) (pending : Source.Pending ρ) :
    Stage ρ × Leg ρ :=
  if stage.source.isReady pending then
    let (source, reply) := stage.source.reply pending call.ask
    let resumed := call.resume stage.desk reply
    match _progress : resumed.2 with
    | .finished finding => (⟨resumed.1, source⟩, .finished finding)
    | .waiting next =>
        let (source, nextPending) := source.take next.ask
        advance ⟨resumed.1, source⟩ next nextPending
  else (stage, .waiting call pending)
termination_by call.rank
decreasing_by exact Call.rank_resume _ _ _ _ _progress

/-- Let a call go on from where its first part left it. -/
def launch (stage : Stage ρ) (started : Desk ρ × Call.Progress ρ) : Stage ρ × Leg ρ :=
  match started with
  | (desk, .finished finding) => (⟨desk, stage.source⟩, .finished finding)
  | (desk, .waiting call) =>
      let (source, pending) := stage.source.take call.ask
      advance ⟨desk, source⟩ call pending

def poll (stage : Stage ρ) : Leg ρ → Stage ρ × Leg ρ
  | .waiting call pending => stage.advance call pending
  | .finished finding => (stage, .finished finding)

def pollAll (stage : Stage ρ) : List (Leg ρ) → Stage ρ × List (Leg ρ)
  | [] => (stage, [])
  | leg :: legs =>
      let (polled, first) := stage.poll leg
      let (after, others) := pollAll polled legs
      (after, first :: others)

/-- Start a call for each key, one after the other. -/
def launchAll (stage : Stage ρ) (start : Desk ρ → ListKey → Desk ρ × Call.Progress ρ) :
    List ListKey → Stage ρ × List (Leg ρ)
  | [] => (stage, [])
  | key :: keys =>
      let (launched, first) := stage.launch (start stage.desk key)
      let (after, others) := launchAll launched start keys
      (after, first :: others)

end Stage

/-- What a call works on beside the desk. -/
inductive Holder where
  | nothing
  | mutation (name : String)
  /-- A screen that looks at its list or changes it without deleting. -/
  | screen (name : String)
  /-- A screen that deletes. -/
  | deletion (screen : String)
deriving DecidableEq, Repr

/-- A call that was started and has not finished. Its report is made of the
findings of its legs. -/
structure Task (ρ β : Type) where
  name : String
  holder : Holder
  legs : List (Leg ρ)
  report : List (Finding ρ) → β

end Rehearsal

open Rehearsal

/-- The number of calls that succeeded side by side, or the first fault. -/
def Finding.countOrFault {ρ : Type} : List (Finding ρ) → Except SourceFault Nat
  | [] => .ok 0
  | .rows (.error fault) :: _ => .error fault
  | _ :: findings => (countOrFault findings).map (· + 1)

/-- Calls played against a scripted source. Screens are of type `σ`, reports of
type `β`. -/
structure Rehearsal (ρ σ β : Type) where
  stage : Stage ρ
  mutations : Keyed String (Mutation ρ)
  screens : Keyed String σ
  /-- The calls that wait, the oldest first. -/
  tasks : List (Task ρ β)

namespace Rehearsal

variable {ρ σ β : Type}

def empty : Rehearsal ρ σ β :=
  ⟨⟨Desk.empty, Source.empty⟩, Keyed.empty, Keyed.empty, []⟩

def cache (rehearsal : Rehearsal ρ σ β) : Cache ρ :=
  rehearsal.stage.desk.cache

def withCache (rehearsal : Rehearsal ρ σ β) (cache : Cache ρ) : Rehearsal ρ σ β :=
  { rehearsal with
    stage := { rehearsal.stage with desk := { rehearsal.stage.desk with cache } } }

def changeSource (rehearsal : Rehearsal ρ σ β) (change : Source ρ → Source ρ) :
    Rehearsal ρ σ β :=
  { rehearsal with
    stage := { rehearsal.stage with source := change rehearsal.stage.source } }

/-- The gates at which calls wait. -/
def waitedGates (rehearsal : Rehearsal ρ σ β) : List Nat :=
  rehearsal.tasks.flatMap fun task => task.legs.filterMap fun leg =>
    match leg with
    | .waiting _ pending => pending.gate
    | .finished _ => none

/-- Whether a gate is still to be passed; nothing is known of a name without a
closed gate. -/
def gateInUse? (rehearsal : Rehearsal ρ σ β) (name : String) : Option Bool :=
  (rehearsal.stage.source.closed.get? name).map fun gate =>
    rehearsal.stage.source.queued.any (·.2 = gate) || rehearsal.waitedGates.contains gate

def isMutationBusy (rehearsal : Rehearsal ρ σ β) (name : String) : Bool :=
  rehearsal.tasks.any fun task => task.holder = .mutation name

def isScreenBusy (rehearsal : Rehearsal ρ σ β) (name : String) : Bool :=
  rehearsal.tasks.any fun task =>
    task.holder = .screen name || task.holder = .deletion name

/-- What a finished call leaves behind on what it worked on. -/
def conclude [Screen σ ρ] (rehearsal : Rehearsal ρ σ β) (holder : Holder)
    (findings : List (Finding ρ)) : Rehearsal ρ σ β :=
  match holder, findings with
  | .mutation name, [.mutation (.ok mutation)] =>
      { rehearsal with mutations := rehearsal.mutations.put name mutation }
  | .deletion name, [.outcome outcome] =>
      match rehearsal.screens.get? name with
      | none => rehearsal
      | some screen =>
          { rehearsal with
            screens := rehearsal.screens.put name
              (Screen.afterRemoval screen rehearsal.cache outcome) }
  | _, _ => rehearsal

/-- Put a call among the waiting ones, or conclude it and return its report. -/
def enter [Screen σ ρ] (rehearsal : Rehearsal ρ σ β) (task : Task ρ β) :
    Rehearsal ρ σ β × Option β :=
  match task.legs.mapM Leg.finding? with
  | some findings => (rehearsal.conclude task.holder findings, some (task.report findings))
  | none => ({ rehearsal with tasks := rehearsal.tasks ++ [task] }, none)

variable [Row ρ] [Screen σ ρ]

/-- Play a call whose first part has run. -/
def play (rehearsal : Rehearsal ρ σ β) (name : String) (holder : Holder)
    (started : Desk ρ × Call.Progress ρ) (report : List (Finding ρ) → β) :
    Rehearsal ρ σ β × Option β :=
  let (stage, leg) := rehearsal.stage.launch started
  { rehearsal with stage }.enter ⟨name, holder, [leg], report⟩

/-- Play the invalidation of every list in a scope, side by side. -/
def playSweep (rehearsal : Rehearsal ρ σ β) (name : String) (scope : Scope)
    (report : List (Finding ρ) → β) : Rehearsal ρ σ β × Option β :=
  let (stage, legs) :=
    rehearsal.stage.launchAll Desk.startInvalidate (rehearsal.cache.keysIn scope)
  { rehearsal with stage }.enter ⟨name, .nothing, legs, report⟩

/-- Let calls go on, and return the reports of those that finish. -/
def goOn (rehearsal : Rehearsal ρ σ β) :
    List (Task ρ β) → Rehearsal ρ σ β × List (String × β)
  | [] => (rehearsal, [])
  | task :: tasks =>
      let (stage, legs) := rehearsal.stage.pollAll task.legs
      let (entered, report) := { rehearsal with stage }.enter { task with legs }
      let (after, reports) := goOn entered tasks
      (after, (report.map fun report => (task.name, report)).toList ++ reports)

/-- Let every waiting call go on as far as it can, the oldest first. -/
def pollAll (rehearsal : Rehearsal ρ σ β) : Rehearsal ρ σ β × List (String × β) :=
  { rehearsal with tasks := [] }.goOn rehearsal.tasks

/-- What happened between two moments of a rehearsal. -/
structure News (ρ : Type) where
  events : List Event
  asked : List (Ask ρ)
  notifications : List Notification

def newsSince {ρ σ β : Type} (rehearsal earlier : Rehearsal ρ σ β) : News ρ where
  events := rehearsal.cache.events.drop earlier.cache.events.length
  asked := rehearsal.stage.source.asked.drop earlier.stage.source.asked.length
  notifications :=
    rehearsal.stage.desk.notifications.drop earlier.stage.desk.notifications.length

end Rehearsal

end Depot
