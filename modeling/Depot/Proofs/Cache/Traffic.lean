import Depot.Proofs.Cache.Entries
import Mathlib.Logic.Relation

/-!
Contract: a cache under any sequence of steps of any number of clients.

A call on a cache runs up to where it waits for the source, and goes on when the
source replies; each of the two parts is one step here, and steps of different
calls come in any order. `Traffic` is the cache with the refreshes that have
begun and not landed, and with a log of what happened under each key.

What is seen of traffic under one key is a `View`. A step acts on a view in one
of four ways, which `step_cases` tells apart: it sets the list, lands a refresh,
forgets the list, or makes a few moves that do none of these.

Owns: steps, runs, views, and how an invariant of views is proved.
Does not own: the invariants (`Depot.Proofs.Cache.Stamps`).
-/

namespace Depot

/-- One step on a cache. -/
inductive Cache.Step (ρ : Type) where
  | set (key : ListKey) (rows : List ρ)
  | update (key : ListKey) (change : List ρ → List ρ)
  | ensure (key : ListKey)
  | refresh (key : ListKey)
  | invalidate (key : ListKey)
  /-- The invalidation of every list in a scope begins. -/
  | sweep (scope : Scope)
  /-- The refresh at a place among those of a key takes the source's reply. -/
  | land (key : ListKey) (place : Nat) (reply : Except SourceFault (List ρ))
  | remove (key : ListKey)
  | clear

/-- Whether the step drops the list under a key. -/
def Cache.Step.Forgets {ρ : Type} (step : Cache.Step ρ) (key : ListKey) : Prop :=
  step = .remove key ∨ step = .clear

/-- What happened under a key. -/
inductive Deed (ρ : Type) where
  /-- A set, or an update of a list that was there, left these rows. -/
  | wrote (rows : List ρ)
  | began (refresh : Refresh)
  | landed (refresh : Refresh) (reply : Except SourceFault (List ρ))

/-- A cache in use. -/
structure Traffic (ρ : Type) where
  cache : Cache ρ
  /-- The refreshes that have begun and not landed, the oldest first. -/
  flights : List Refresh
  /-- What happened under each key, the newest first. -/
  log : ListKey → List (Deed ρ)

namespace Traffic

variable {ρ : Type}

def start : Traffic ρ := ⟨Cache.empty, [], fun _ => []⟩

/-- The traffic with one more deed under a key. -/
def note (traffic : Traffic ρ) (key : ListKey) (deed : Deed ρ) : Traffic ρ :=
  { traffic with
    log := fun other => if other = key then deed :: traffic.log key else traffic.log other }

def flightsOf (traffic : Traffic ρ) (key : ListKey) : List Refresh :=
  traffic.flights.filter fun refresh => refresh.key = key

/-- The refresh at a place among those of a key. -/
def flight? (traffic : Traffic ρ) (key : ListKey) (place : Nat) : Option Refresh :=
  (traffic.flightsOf key)[place]?

/-- Write to the list under a key, if there is one. -/
def update (traffic : Traffic ρ) (key : ListKey) (change : List ρ → List ρ) : Traffic ρ :=
  match traffic.cache.update key change with
  | (_, none) => traffic
  | (cache, some previous) => { traffic with cache }.note key (.wrote (change previous))

/-- Take up a refresh that has just begun. -/
def depart (traffic : Traffic ρ) (begun : Cache ρ × Refresh) : Traffic ρ :=
  { traffic with cache := begun.1, flights := traffic.flights ++ [begun.2] }.note
    begun.2.key (.began begun.2)

def invalidate (traffic : Traffic ρ) (key : ListKey) : Traffic ρ :=
  traffic.depart (traffic.cache.beginInvalidate key)

def land (traffic : Traffic ρ) (refresh : Refresh) (reply : Except SourceFault (List ρ)) :
    Traffic ρ :=
  { traffic with
    cache := (traffic.cache.land refresh reply).1
    flights := traffic.flights.erase refresh }.note refresh.key (.landed refresh reply)

/-- Take one step. A step that names a refresh that is not there does nothing. -/
def step (traffic : Traffic ρ) : Cache.Step ρ → Traffic ρ
  | .set key rows =>
      { traffic with cache := traffic.cache.set key rows }.note key (.wrote rows)
  | .update key change => traffic.update key change
  | .ensure key =>
      match traffic.cache.fresh? key with
      | some _ => traffic
      | none => traffic.depart (traffic.cache.begin key)
  | .refresh key => traffic.depart (traffic.cache.begin key)
  | .invalidate key => traffic.invalidate key
  | .sweep scope => (traffic.cache.keysIn scope).foldl invalidate traffic
  | .land key place reply =>
      match traffic.flight? key place with
      | none => traffic
      | some refresh => traffic.land refresh reply
  | .remove key => { traffic with cache := (traffic.cache.remove key).1 }
  | .clear => { traffic with cache := traffic.cache.clear }

def run (traffic : Traffic ρ) (steps : List (Cache.Step ρ)) : Traffic ρ :=
  steps.foldl step traffic

@[simp]
theorem run_nil (traffic : Traffic ρ) : traffic.run [] = traffic := rfl

@[simp]
theorem run_cons (traffic : Traffic ρ) (step : Cache.Step ρ) (steps : List (Cache.Step ρ)) :
    traffic.run (step :: steps) = (traffic.step step).run steps := rfl

theorem run_append (traffic : Traffic ρ) (earlier later : List (Cache.Step ρ)) :
    traffic.run (earlier ++ later) = (traffic.run earlier).run later :=
  List.foldl_append

end Traffic

/-- What is seen of traffic under one key. -/
structure View (ρ : Type) where
  entry : Option (Entry ρ)
  /-- The stamp that is drawn next. -/
  clock : Nat
  flights : List Refresh
  log : List (Deed ρ)

namespace View

variable {ρ : Type}

def set (view : View ρ) (rows : List ρ) : View ρ :=
  { view with
    entry := some ⟨rows, view.clock, 0, false⟩
    clock := view.clock + 1
    log := .wrote rows :: view.log }

def land (view : View ρ) (refresh : Refresh) (reply : Except SourceFault (List ρ)) : View ρ :=
  { view with
    entry := refresh.fill view.entry reply
    flights := view.flights.erase refresh
    log := .landed refresh reply :: view.log }

def forget (view : View ρ) : View ρ :=
  { view with entry := none }

def begin (view : View ρ) (key : ListKey) : View ρ :=
  let refresh : Refresh := ⟨key, view.entry.map Entry.written, view.clock⟩
  { view with
    clock := view.clock + 1
    flights := view.flights ++ [refresh]
    log := .began refresh :: view.log }

/-- One move under a key: a step that neither sets the list, lands a refresh, nor
drops the list is made of such moves. -/
inductive Move (key : ListKey) : View ρ → View ρ → Prop
  /-- Stamps are drawn for other keys. -/
  | pass (view : View ρ) (clock : Nat) (later : view.clock ≤ clock) :
      Move key view { view with clock }
  | update (view : View ρ) (entry : Entry ρ) (rows : List ρ) (present : view.entry = some entry) :
      Move key view
        { view with
          entry := some { entry with rows, written := view.clock }
          clock := view.clock + 1
          log := .wrote rows :: view.log }
  | mark (view : View ρ) (entry : Entry ρ) (present : view.entry = some entry) :
      Move key view { view with entry := some { entry with stale := true } }
  | begin (view : View ρ) : Move key view (view.begin key)

/-- Moves one after the other. -/
abbrev Moves (key : ListKey) : View ρ → View ρ → Prop :=
  Relation.ReflTransGen (Move key)

/-- What every move keeps is kept by moves one after the other. -/
theorem Moves.invariant {key : ListKey} {Invariant : View ρ → Prop}
    (move : ∀ before after, Move key before after → Invariant before → Invariant after)
    {before after : View ρ} (moves : Moves key before after) (atStart : Invariant before) :
    Invariant after := by
  induction moves with
  | refl => exact atStart
  | tail _ last inductionHypothesis => exact move _ _ last inductionHypothesis

end View

namespace Traffic

variable {ρ : Type}

/-- The view of traffic under a key. -/
def view (traffic : Traffic ρ) (key : ListKey) : View ρ :=
  ⟨traffic.cache.entries.get? key, traffic.cache.nextStamp, traffic.flightsOf key,
    traffic.log key⟩

/-- A refresh at a place among those of a key is one of the key's. -/
theorem mem_flightsOf {traffic : Traffic ρ} {key : ListKey} {place : Nat} {refresh : Refresh}
    (found : traffic.flight? key place = some refresh) :
    refresh ∈ traffic.flightsOf key :=
  List.mem_of_getElem? found

/-- A refresh of a key carries its key. -/
theorem key_of_mem_flightsOf {traffic : Traffic ρ} {key : ListKey} {refresh : Refresh}
    (member : refresh ∈ traffic.flightsOf key) : refresh.key = key := by
  simpa using (List.mem_filter.mp member).2

/-! ### What one step does to a view -/

section Steps

variable (traffic : Traffic ρ) (key other : ListKey)

theorem view_set (rows : List ρ) :
    (traffic.step (.set key rows)).view key = (traffic.view key).set rows := by
  simp [step, view, note, flightsOf, View.set]

theorem view_land {refresh : Refresh} (mine : refresh.key = key)
    (reply : Except SourceFault (List ρ)) :
    (traffic.land refresh reply).view key = (traffic.view key).land refresh reply := by
  subst mine
  simp [land, view, note, flightsOf, View.land, List.erase_filter]

/-- A step on another key only lets the counter go on. -/
theorem moves_pass {after : Traffic ρ}
    (entry : after.cache.entries.get? key = traffic.cache.entries.get? key)
    (clock : traffic.cache.nextStamp ≤ after.cache.nextStamp)
    (flights : after.flightsOf key = traffic.flightsOf key)
    (log : after.log key = traffic.log key) :
    View.Moves key (traffic.view key) (after.view key) := by
  have same : after.view key = { traffic.view key with clock := after.cache.nextStamp } := by
    simp [view, entry, flights, log]
  rw [same]
  exact .single (.pass _ _ clock)

theorem moves_update (change : List ρ → List ρ) :
    View.Moves key (traffic.view key) ((traffic.update other change).view key) := by
  cases present : traffic.cache.entries.get? other with
  | none =>
      simp only [update, traffic.cache.update_absent other change present]
      exact .refl
  | some entry =>
      simp only [update, traffic.cache.update_present other change present]
      by_cases same : key = other
      · subst same
        refine .single ?_
        have move : View.Move key (traffic.view key) _ :=
          .update _ entry (change entry.rows) present
        simpa [view, note, flightsOf, Cache.publish, Cache.putEntry, Cache.drawn] using move
      · apply moves_pass
        · simp [note, Cache.publish, Cache.putEntry, Cache.drawn, same]
        · exact Nat.le_succ _
        · rfl
        · simp [note, same]

theorem moves_begin :
    View.Moves key (traffic.view key)
      ((traffic.depart (traffic.cache.begin other)).view key) := by
  by_cases same : key = other
  · subst same
    refine .single ?_
    have move : View.Move key (traffic.view key) _ := .begin _
    simpa [view, View.begin, depart, note, flightsOf, Cache.begin, Cache.writtenStamp?,
      Cache.drawn] using move
  · have differs : ¬other = key := fun equal => same equal.symm
    apply moves_pass
    · rfl
    · exact Nat.le_succ _
    · simp [depart, note, flightsOf, differs]
    · simp [depart, note, same]

theorem moves_mark :
    View.Moves key (traffic.view key)
      (({ traffic with cache := traffic.cache.markStale other } : Traffic ρ).view key) := by
  by_cases same : key = other
  · subst same
    cases present : traffic.cache.entries.get? key with
    | none =>
        apply moves_pass
        · simp [present]
        · simp
        · rfl
        · rfl
    | some entry =>
        refine .single ?_
        have move : View.Move key (traffic.view key) _ := .mark _ entry present
        simpa [view, present, flightsOf] using move
  · apply moves_pass
    · simp [same]
    · simp
    · rfl
    · rfl

theorem moves_invalidate :
    View.Moves key (traffic.view key) ((traffic.invalidate other).view key) :=
  (traffic.moves_mark key other).trans (moves_begin _ key other)

theorem moves_sweep (keys : List ListKey) :
    View.Moves key (traffic.view key) ((keys.foldl invalidate traffic).view key) := by
  induction keys generalizing traffic with
  | nil => exact .refl
  | cons first keys inductionHypothesis =>
      exact (traffic.moves_invalidate key first).trans
        (inductionHypothesis (traffic.invalidate first))

/-- A step sets the list, lands a refresh, forgets the list, or makes moves. -/
theorem step_cases (step : Cache.Step ρ) :
    (∃ rows, step = .set key rows ∧
        (traffic.step step).view key = (traffic.view key).set rows) ∨
      (∃ place reply refresh, step = .land key place reply ∧
        traffic.flight? key place = some refresh ∧
        (traffic.step step).view key = (traffic.view key).land refresh reply) ∨
      (step.Forgets key ∧ (traffic.step step).view key = (traffic.view key).forget) ∨
      View.Moves key (traffic.view key) ((traffic.step step).view key) := by
  cases step with
  | set other rows =>
      by_cases same : key = other
      · subst same
        exact .inl ⟨rows, rfl, traffic.view_set key rows⟩
      · refine .inr (.inr (.inr (traffic.moves_pass key ?_ ?_ ?_ ?_)))
        · simp [step, note, same]
        · exact Nat.le_succ _
        · rfl
        · simp [step, note, same]
  | update other change => exact .inr (.inr (.inr (traffic.moves_update key other change)))
  | ensure other =>
      refine .inr (.inr (.inr ?_))
      cases fresh : traffic.cache.fresh? other with
      | some rows =>
          simp only [step, fresh]
          exact .refl
      | none =>
          simp only [step, fresh]
          exact traffic.moves_begin key other
  | refresh other => exact .inr (.inr (.inr (traffic.moves_begin key other)))
  | invalidate other => exact .inr (.inr (.inr (traffic.moves_invalidate key other)))
  | sweep scope => exact .inr (.inr (.inr (traffic.moves_sweep key _)))
  | land other place reply =>
      cases found : traffic.flight? other place with
      | none =>
          refine .inr (.inr (.inr ?_))
          simp only [step, found]
          exact .refl
      | some refresh =>
          have mine : refresh.key = other := key_of_mem_flightsOf (mem_flightsOf found)
          by_cases same : key = other
          · subst same
            refine .inr (.inl ⟨place, reply, refresh, rfl, found, ?_⟩)
            simp only [step, found]
            exact traffic.view_land key mine reply
          · refine .inr (.inr (.inr ?_))
            simp only [step, found]
            apply moves_pass
            · simp [land, note, mine, same]
            · simp [land, note]
            · have foreign : refresh ∉ traffic.flightsOf key := fun member =>
                same ((key_of_mem_flightsOf member).symm.trans mine)
              exact List.erase_filter.symm.trans (List.erase_of_not_mem foreign)
            · simp [land, note, mine, same]
  | remove other =>
      by_cases same : key = other
      · subst same
        refine .inr (.inr (.inl ⟨.inl rfl, ?_⟩))
        simp [step, view, flightsOf, View.forget]
      · refine .inr (.inr (.inr (traffic.moves_pass key ?_ ?_ rfl rfl)))
        · simp [step, same]
        · simp [step]
  | clear =>
      refine .inr (.inr (.inl ⟨.inr rfl, ?_⟩))
      simp [step, view, flightsOf, View.forget]

end Steps

/-! ### Invariants of views -/

/-- What every way of acting on a view keeps holds at the end of every run that
it holds at the start of. -/
theorem view_invariant {key : ListKey} {Invariant : View ρ → Prop}
    (set : ∀ view rows, Invariant view → Invariant (view.set rows))
    (land : ∀ view refresh reply, refresh ∈ view.flights → Invariant view →
      Invariant (view.land refresh reply))
    (move : ∀ before after, View.Move key before after → Invariant before → Invariant after)
    (steps : List (Cache.Step ρ))
    (forget : ∀ step ∈ steps, step.Forgets key → ∀ view : View ρ, Invariant view →
      Invariant view.forget)
    (traffic : Traffic ρ) (atStart : Invariant (traffic.view key)) :
    Invariant ((traffic.run steps).view key) := by
  induction steps generalizing traffic with
  | nil => exact atStart
  | cons step steps inductionHypothesis =>
      rw [run_cons]
      apply inductionHypothesis
      · intro other member
        exact forget other (List.mem_cons_of_mem step member)
      · rcases traffic.step_cases key step with
          ⟨rows, -, after⟩ | ⟨place, reply, refresh, -, found, after⟩ | ⟨forgets, after⟩ | moves
        · rw [after]
          exact set _ rows atStart
        · rw [after]
          exact land _ refresh reply (mem_flightsOf found) atStart
        · rw [after]
          exact forget step List.mem_cons_self forgets _ atStart
        · exact View.Moves.invariant move moves atStart

/-- What every step of a run keeps holds wherever the run is cut. -/
theorem prefix_invariant {Invariant : Traffic ρ → Prop} (traffic : Traffic ρ)
    (later : List (Cache.Step ρ)) (atStart : Invariant traffic)
    (step : ∀ early next rest, later = early ++ next :: rest →
      Invariant (traffic.run early) → Invariant ((traffic.run early).step next))
    (early rest : List (Cache.Step ρ)) (cut : later = early ++ rest) :
    Invariant (traffic.run early) := by
  induction early generalizing traffic later with
  | nil => exact atStart
  | cons first early inductionHypothesis =>
      subst cut
      refine inductionHypothesis (traffic.step first) (early ++ rest) ?_ ?_ rfl
      · exact step [] first (early ++ rest) rfl atStart
      · intro before next after cut good
        refine step (first :: before) next after ?_ good
        rw [List.cons_append, List.cons_append, cut]

/-- A log only grows. -/
theorem log_suffix_run (traffic : Traffic ρ) (steps : List (Cache.Step ρ)) (key : ListKey) :
    traffic.log key <:+ (traffic.run steps).log key := by
  refine @view_invariant ρ key (fun view => traffic.log key <:+ view.log) ?_ ?_ ?_ steps ?_ traffic
    (List.suffix_refl _)
  · intro view rows grown
    exact grown.trans (List.suffix_cons _ _)
  · intro view refresh reply _ grown
    exact grown.trans (List.suffix_cons _ _)
  · intro before after move grown
    cases move with
    | pass | mark => exact grown
    | update | begin => exact grown.trans (List.suffix_cons _ _)
  · intro step _ _ view grown
    exact grown

end Traffic

end Depot
