import Depot.Proofs.Edit.Sweep

/-!
Contract: a rehearsed sweep is a sweep.

When no gate holds up a fetch, a rehearsal starts the invalidation of each list of a scope and
lets it go on to its end before it starts the next one. These are the turns of a sweep, two for
each list, and the script gives the replies.

Owns: the sweep that a rehearsal plays.
Does not own: where sweeps end (`Depot.Proofs.Edit.Sweep`).
-/

namespace Depot

variable {ρ : Type}

/-! ### Fetches that need not wait -/

namespace Rehearsal

namespace Source

/-- What the source replies to the fetch of a list at once. -/
def answer (source : Source ρ) (key : ListKey) : Except SourceFault (List ρ) :=
  match source.fetchFault key with
  | some fault => .error fault
  | none => .ok (source.rows key)

/-- No gate is queued for a fetch. -/
def IsOpenToFetches (source : Source ρ) : Prop :=
  ∀ gate ∈ source.queued, gate.1 ≠ .fetch

theorem takeGate_of_forall_ne {kind : AskKind} {queued : List (AskKind × Nat)}
    (others : ∀ gate ∈ queued, gate.1 ≠ kind) : takeGate kind queued = (queued, none) := by
  induction queued with
  | nil => rfl
  | cons first queued inductionHypothesis =>
      obtain ⟨differs, rest⟩ := List.forall_mem_cons.mp others
      rw [takeGate, if_neg differs, inductionHypothesis rest]

theorem take_fetch {source : Source ρ} (opened : source.IsOpenToFetches) (key : ListKey) :
    source.take (.fetch key) =
      ({ source with asked := source.asked ++ [.fetch key] }, ⟨none, source.rows key⟩) := by
  have free := takeGate_of_forall_ne opened
  simp [take, kindOf, free]

theorem reply_fetch [Row ρ] (source : Source ρ) (gate : Option Nat) (key : ListKey) :
    source.reply ⟨gate, source.rows key⟩ (.fetch key) = (source, source.answer key) := by
  simp only [reply, answer]
  cases source.fetchFault key <;> rfl

end Source

namespace Stage

variable [Row ρ] (stage : Stage ρ)

theorem advance_refreshing (refresh : Refresh) :
    stage.advance (.refreshing refresh) ⟨none, stage.source.rows refresh.key⟩ =
      let landed := stage.desk.cache.land refresh (stage.source.answer refresh.key)
      (⟨{ stage.desk with cache := landed.1 }, stage.source⟩, .finished (.rows landed.2)) := by
  have replied : stage.source.reply ⟨none, stage.source.rows refresh.key⟩
      (Call.refreshing refresh).ask = (stage.source, stage.source.answer refresh.key) :=
    stage.source.reply_fetch none refresh.key
  have ready : stage.source.isReady ⟨none, stage.source.rows refresh.key⟩ := rfl
  rw [advance, if_pos ready, replied]
  rfl

/-- Where no fetch has to wait, the invalidation of a list is over as soon as it is started. -/
theorem launch_startInvalidate (opened : stage.source.IsOpenToFetches) (key : ListKey) :
    stage.launch (stage.desk.startInvalidate key) =
      let begun := stage.desk.cache.beginInvalidate key
      let landed := begun.1.land begun.2 (stage.source.answer key)
      (⟨{ stage.desk with cache := landed.1 },
        { stage.source with asked := stage.source.asked ++ [.fetch key] }⟩,
        .finished (.rows landed.2)) := by
  have taken := Source.take_fetch opened key
  simp only [launch, Desk.startInvalidate, Call.ask, Cache.key_beginInvalidate, taken]
  exact advance_refreshing ⟨_, { stage.source with asked := stage.source.asked ++ [.fetch key] }⟩
    (stage.desk.cache.beginInvalidate key).2

end Stage

end Rehearsal

namespace Sweep

open Rehearsal

def Part.ofLeg : Leg ρ → Part ρ
  | .waiting call _ => .waiting call
  | .finished finding => .finished finding

/-- Two turns for each of a number of parts, one part after the other. -/
def inOrder (first : Nat) : Nat → List Nat
  | 0 => []
  | count + 1 => first :: first :: inOrder (first + 1) count

theorem count_inOrder (first count place : Nat) :
    (inOrder first count).count place = if first ≤ place ∧ place < first + count then 2 else 0 := by
  induction count generalizing first with
  | zero =>
      rw [if_neg (by omega)]
      rfl
  | succ count inductionHypothesis =>
      rw [inOrder, List.count_cons, List.count_cons, inductionHypothesis]
      simp only [beq_iff_eq]
      split_ifs <;> omega

theorem turn_middle (replies : (ask : Ask ρ) → ask.Reply) (desk : Desk ρ)
    (ended rest : List (Part ρ)) (asked : List (Ask ρ)) (key : ListKey) :
    let begun := desk.cache.beginInvalidate key
    let landed := begun.1.land begun.2 (replies (.fetch key))
    run replies ⟨desk, ended ++ .unstarted key :: rest, asked⟩ [ended.length, ended.length] =
      ⟨{ desk with cache := landed.1 }, ended ++ [.finished (.rows landed.2)] ++ rest,
        asked ++ [.fetch key]⟩ := by
  have first : turn replies ⟨desk, ended ++ .unstarted key :: rest, asked⟩ ended.length =
      ⟨{ desk with cache := (desk.cache.beginInvalidate key).1 },
        ended ++ .waiting (.refreshing (desk.cache.beginInvalidate key).2) :: rest,
        asked ++ [.fetch key]⟩ := by
    simp [turn, proceed, Desk.startInvalidate, Part.ofProgress, asks, Call.ask]
  simp only [run, List.foldl_cons, List.foldl_nil, first]
  simp [turn, proceed, Call.resume, Part.ofProgress, asks, Call.ask]

/-- A list whose invalidation is rehearsed has both of its turns. -/
theorem launch_eq_turns [Row ρ] {replies : (ask : Ask ρ) → ask.Reply} {stage : Stage ρ}
    (opened : stage.source.IsOpenToFetches)
    (answers : ∀ key, replies (.fetch key) = stage.source.answer key) (key : ListKey)
    (ended rest : List (Part ρ)) (asked : List (Ask ρ)) :
    ∃ desk finding,
      stage.launch (stage.desk.startInvalidate key) =
          (⟨desk, { stage.source with asked := stage.source.asked ++ [.fetch key] }⟩,
            .finished finding) ∧
        run replies ⟨stage.desk, ended ++ .unstarted key :: rest, asked⟩
            [ended.length, ended.length] =
          ⟨desk, ended ++ [.finished finding] ++ rest, asked ++ [.fetch key]⟩ := by
  refine ⟨_, _, stage.launch_startInvalidate opened key, ?_⟩
  rw [← answers]
  exact turn_middle replies stage.desk ended rest asked key

/-- The lists of a rehearsed sweep are refreshed one after the other. -/
theorem launchAll_eq_run [Row ρ] {replies : (ask : Ask ρ) → ask.Reply} {stage : Stage ρ}
    (opened : stage.source.IsOpenToFetches)
    (answers : ∀ key, replies (.fetch key) = stage.source.answer key) (keys : List ListKey)
    (ended : List (Part ρ)) (asked : List (Ask ρ)) :
    run replies ⟨stage.desk, ended ++ keys.map .unstarted, asked⟩
        (inOrder ended.length keys.length) =
      ⟨(stage.launchAll Desk.startInvalidate keys).1.desk,
        ended ++ (stage.launchAll Desk.startInvalidate keys).2.map .ofLeg,
        asked ++ keys.map .fetch⟩ := by
  induction keys generalizing stage ended asked with
  | nil => simp [inOrder, run, Stage.launchAll]
  | cons key keys inductionHypothesis =>
      obtain ⟨desk, finding, launched, first⟩ :=
        launch_eq_turns opened answers key ended (keys.map .unstarted) asked
      let source : Source ρ := { stage.source with asked := stage.source.asked ++ [.fetch key] }
      have later := @inductionHypothesis ⟨desk, source⟩ opened answers
        (ended ++ [.finished finding]) (asked ++ [.fetch key])
      rw [← first, List.length_append, List.length_singleton, run, run,
        ← List.foldl_append] at later
      simp only [Stage.launchAll, launched]
      rw [List.append_assoc, List.append_assoc] at later
      exact later

/-- The questions of a rehearsed sweep are logged by the source. -/
theorem asked_launchAll [Row ρ] {stage : Stage ρ} (opened : stage.source.IsOpenToFetches)
    (keys : List ListKey) :
    (stage.launchAll Desk.startInvalidate keys).1.source.asked =
      stage.source.asked ++ keys.map .fetch := by
  induction keys generalizing stage with
  | nil => exact (List.append_nil _).symm
  | cons key keys inductionHypothesis =>
      let source : Source ρ := { stage.source with asked := stage.source.asked ++ [.fetch key] }
      obtain ⟨desk, finding, launched⟩ : ∃ desk finding,
          stage.launch (stage.desk.startInvalidate key) = (⟨desk, source⟩, .finished finding) :=
        ⟨_, _, stage.launch_startInvalidate opened key⟩
      have later := @inductionHypothesis ⟨desk, source⟩ opened
      rw [List.append_assoc] at later
      simp only [Stage.launchAll, launched]
      exact later

/-- A sweep that is rehearsed while no fetch has to wait ends as the script says. -/
theorem settles_launchAll [Row ρ] (steps : List (Cache.Step ρ)) {stage : Stage ρ}
    (cached : stage.desk.cache = (Traffic.start.run steps).cache)
    (opened : stage.source.IsOpenToFetches) {replies : (ask : Ask ρ) → ask.Reply}
    (answers : ∀ key, replies (.fetch key) = stage.source.answer key) (scope : Scope) :
    let launched := stage.launchAll Desk.startInvalidate (stage.desk.cache.keysIn scope)
    Settles stage.desk.cache scope replies
      ⟨launched.1.desk, launched.2.map .ofLeg,
        launched.1.source.asked.drop stage.source.asked.length⟩ := by
  have played := launchAll_eq_run opened answers (stage.desk.cache.keysIn scope) [] []
  have complete : ∀ place < (stage.desk.cache.keysIn scope).length,
      2 ≤ (inOrder 0 (stage.desk.cache.keysIn scope).length).count place := by
    intro place inside
    have counted := count_inOrder 0 (stage.desk.cache.keysIn scope).length place
    rw [if_pos (by omega)] at counted
    exact Nat.le_of_eq counted.symm
  have settles := settles_run steps cached scope replies (.refl _) complete
  simp only [asked_launchAll opened, List.drop_left]
  rw [begin, ← List.nil_append (List.map _ _), ← List.length_nil, played] at settles
  exact settles

end Sweep

end Depot
