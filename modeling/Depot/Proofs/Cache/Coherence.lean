import Depot.Proofs.Cache.Local
import Depot.Proofs.Edit.Course
import Mathlib.Data.List.Induction

/-!
Contract: what a call for a list returns, and what the cache holds then.

A call that finds its list returns it. One that waits returns when its refresh lands, and the
list may have been written, refreshed or removed since. Rows that are returned are those under
the key at that moment, unless the list was there when the refresh began and is gone now. A
fault leaves every list as it is, but may make the one that was asked for stale.

Owns: where a refresh on its way began, what is returned, and how often the source is asked.
Does not own: which rows a list comes to hold (`Depot.Proofs.Cache.Holding`).
-/

namespace Depot

variable {ρ σ : Type}

/-! ### Where a refresh began -/

namespace View

variable {key : ListKey} {view : View ρ} {refresh : Refresh}

theorem mem_flights_begin (flying : refresh ∈ (view.begin key).flights) :
    refresh ∈ view.flights ∨ refresh.writtenAt = view.entry.map Entry.written := by
  apply (List.mem_append.mp flying).imp id
  intro new
  rw [List.mem_singleton.mp new]

theorem written_mark (view : View ρ) :
    view.mark.entry.map Entry.written = view.entry.map Entry.written := by
  simp [mark, Function.comp_def]

/-- A refresh that is on its way after a step on its key was so before, or it began in the step
and has noted the list as it was before. -/
theorem mem_flights_step {step : Cache.Step ρ}
    (flying : refresh ∈ (view.step key step).flights) :
    refresh ∈ view.flights ∨ refresh.writtenAt = view.entry.map Entry.written := by
  cases step with
  | set | remove | sweep | clear => exact .inl flying
  | update other change =>
      simp only [View.step, View.update] at flying
      split at flying
      next => exact .inl flying
      next => exact .inl flying
  | ensure other =>
      simp only [View.step] at flying
      split at flying
      next => exact .inl flying
      next => exact mem_flights_begin flying
  | refresh other => exact mem_flights_begin flying
  | invalidate other =>
      rw [← written_mark]
      exact mem_flights_begin flying
  | land other place reply =>
      simp only [View.step] at flying
      split at flying
      next => exact .inl flying
      next => exact .inl (List.mem_of_mem_erase flying)

end View

namespace Traffic

theorem mem_flightsOf_step (traffic : Traffic ρ) {key : ListKey} (step : Cache.Step ρ)
    {refresh : Refresh} (flying : refresh ∈ (traffic.step step).flightsOf key) :
    refresh ∈ traffic.flightsOf key ∨
      refresh.writtenAt = traffic.cache.writtenStamp? key := by
  have seen : refresh ∈ ((traffic.step step).view key).flights := flying
  cases own : step.key? with
  | some other =>
      by_cases same : other = key
      · subst same
        rw [traffic.view_step step own] at seen
        exact View.mem_flights_step seen
      · rw [(traffic.passes_step own same).flights] at flying
        exact .inl flying
  | none =>
      cases step with
      | clear => exact .inl flying
      | sweep scope =>
          by_cases reached : key ∈ traffic.cache.keysIn scope
          · obtain ⟨middle, before, after⟩ :=
              traffic.sweep_reached (traffic.cache.nodup_keysIn scope) reached
            -- A sweep reaches a key once, and what comes before does nothing to the key.
            have begun : refresh ∈ ((middle.step (.invalidate key)).view key).flights := by
              change refresh ∈ (middle.step (.invalidate key)).flightsOf key
              rw [← after.flights]
              exact flying
            rw [middle.view_step (.invalidate key) rfl] at begun
            have origin := View.mem_flights_step begun
            rwa [before.view_eq] at origin
          · rw [show (traffic.step (.sweep scope)).flightsOf key = _ from
              (traffic.passes_sweep reached).flights] at flying
            exact .inl flying
      | set | update | ensure | refresh | invalidate | land | remove => cases own

/-- A refresh began at one of the steps of a run, when there was a list under its key. -/
def BeganCached (steps : List (Cache.Step ρ)) (key : ListKey) (refresh : Refresh) : Prop :=
  ∃ early step later, steps = early ++ step :: later ∧
    refresh ∉ ((start : Traffic ρ).run early).flightsOf key ∧
    refresh ∈ ((start : Traffic ρ).run (early ++ [step])).flightsOf key ∧
    (((start : Traffic ρ).run early).cache.get? key).isSome

/-- A refresh that is on its way and has noted a list began when there was one. -/
theorem beganCached (steps : List (Cache.Step ρ)) {key : ListKey} {refresh : Refresh}
    (flying : refresh ∈ ((start : Traffic ρ).run steps).flightsOf key)
    (noted : refresh.writtenAt ≠ none) : BeganCached steps key refresh := by
  -- It was on its way before the last step, or it began there and noted what that step found.
  induction steps using List.reverseRecOn with
  | nil => cases flying
  | append_singleton steps step inductionHypothesis =>
      by_cases before : refresh ∈ ((start : Traffic ρ).run steps).flightsOf key
      · obtain ⟨early, first, later, split, rest⟩ := inductionHypothesis before
        exact ⟨early, first, later ++ [step], by simp [split], rest⟩
      · refine ⟨steps, step, [], rfl, before, flying, ?_⟩
        rw [run_append] at flying
        have origin := (mem_flightsOf_step _ step flying).resolve_left before
        rw [origin] at noted
        simpa [Cache.writtenStamp?, Cache.get?, Option.isSome_iff_ne_none] using noted

end Traffic

/-! ### What is returned -/

namespace Refresh

variable (refresh : Refresh) (entry : Option (Entry ρ))

/-- A refresh that succeeds returns the rows that are there when it has landed, or the fetched
ones when there are none because the list was removed. -/
theorem rows_fill {fetched rows : List ρ}
    (returned : refresh.result entry (.ok fetched) = .ok rows) :
    (refresh.fill entry (.ok fetched)).map Entry.rows = some rows ∨
      refresh.fill entry (.ok fetched) = none ∧ refresh.writtenAt ≠ none ∧ rows = fetched := by
  by_cases kept : refresh.IsKept entry
  · simp only [result, kept, ↓reduceIte, Except.ok.injEq] at returned
    simp [fill, kept, returned]
  · simp only [result, kept, ↓reduceIte, Except.ok.injEq] at returned
    cases entry with
    | some entry =>
        left
        simpa [fill, kept] using returned
    | none =>
        right
        exact ⟨by simp [fill, kept], kept, by simpa using returned.symm⟩

/-- A refresh that fails leaves the rows, and makes the list at most stale. -/
theorem fill_error (fault : SourceFault) :
    (refresh.fill entry (.error fault)).map Entry.rows = entry.map Entry.rows ∧
      ((refresh.fill entry (.error fault)).map Entry.stale = entry.map Entry.stale ∨
        entry.map Entry.stale = some false ∧
          (refresh.fill entry (.error fault)).map Entry.stale = some true) := by
  cases entry with
  | none => exact ⟨rfl, .inl rfl⟩
  | some entry =>
      refine ⟨by simp [fill], ?_⟩
      simp only [fill, Option.map_some, Option.some.injEq, blame]
      cases stale : entry.stale with
      | true =>
          left
          split
          · rfl
          · exact stale
      | false =>
          split
          · exact .inr ⟨rfl, rfl⟩
          · exact .inl stale

end Refresh

namespace Traffic

variable (traffic : Traffic ρ) {key : ListKey}

theorem returned_land {place : Nat} {refresh : Refresh}
    (found : traffic.flight? key place = some refresh) (reply : Except SourceFault (List ρ)) :
    traffic.returned (.land key place reply) =
        .rows (refresh.result (traffic.cache.entries.get? key) reply) ∧
      ∀ other, (traffic.step (.land key place reply)).cache.entries.get? other =
        if other = key then refresh.fill (traffic.cache.entries.get? key) reply
        else traffic.cache.entries.get? other := by
  have mine : refresh.key = key := key_of_mem_flightsOf (mem_flightsOf found)
  subst mine
  refine ⟨?_, ?_⟩
  · simp only [returned, found, Cache.result_land]
  · intro other
    simp only [step, found, land, note, Cache.entries_land]

/-- A list that is found is returned at once, as it is. -/
theorem returned_ensure {reply : Except SourceFault (List ρ)}
    (returned : traffic.returned (.ensure key) = .rows reply) :
    ∃ rows, reply = .ok rows ∧ (traffic.step (.ensure key)).cache.get? key = some rows := by
  simp only [Traffic.returned] at returned
  split at returned
  next rows fresh =>
    cases returned
    refine ⟨rows, rfl, ?_⟩
    simp only [step, fresh]
    exact ((traffic.cache.fresh?_eq_some key).mp fresh).1
  next => cases returned

/-- A call that waited returns when its refresh lands. -/
theorem exists_flight {place : Nat} {reply returned : Except SourceFault (List ρ)}
    (returns : traffic.returned (.land key place reply) = .rows returned) :
    ∃ refresh, traffic.flight? key place = some refresh ∧
      refresh.result (traffic.cache.entries.get? key) reply = returned := by
  cases found : traffic.flight? key place with
  | none =>
      simp only [Traffic.returned, found] at returns
      cases returns
  | some refresh =>
      rw [(traffic.returned_land found reply).1] at returns
      cases returns
      exact ⟨refresh, rfl, rfl⟩

theorem returned_rows {step : Cache.Step ρ} {rows : List ρ} (own : step.key? = some key)
    (returned : traffic.returned step = .rows (.ok rows)) :
    (traffic.step step).cache.get? key = some rows ∨
      (traffic.step step).cache.get? key = none ∧ ∃ place refresh,
        step = .land key place (.ok rows) ∧ traffic.flight? key place = some refresh ∧
        refresh.writtenAt ≠ none := by
  cases step with
  | set | update | refresh | invalidate | remove | sweep | clear => cases returned
  | ensure other =>
      cases own
      obtain ⟨found, same, held⟩ := traffic.returned_ensure returned
      cases same
      exact .inl held
  | land other place reply =>
      cases own
      obtain ⟨refresh, found, result⟩ := traffic.exists_flight returned
      have landed := (traffic.returned_land found reply).2 key
      rw [if_pos rfl] at landed
      cases reply with
      | error fault => cases result
      | ok fetched =>
          rw [Cache.get?, landed]
          rcases refresh.rows_fill _ result with held | ⟨gone, noted, same⟩
          · exact .inl held
          · subst same
            exact .inr ⟨congrArg (Option.map Entry.rows) gone, place, refresh, rfl, found, noted⟩

theorem returned_fault {step : Cache.Step ρ} {fault : SourceFault} (own : step.key? = some key)
    (returned : traffic.returned step = .rows (.error fault)) :
    (∃ place, step = .land key place (.error fault)) ∧
      ∀ other, (traffic.step step).cache.get? other = traffic.cache.get? other ∧
        ((traffic.step step).cache.isStale? other = traffic.cache.isStale? other ∨
          other = key ∧ traffic.cache.isStale? other = some false ∧
            (traffic.step step).cache.isStale? other = some true) := by
  cases step with
  | set | update | refresh | invalidate | remove | sweep | clear => cases returned
  | ensure other =>
      cases own
      obtain ⟨found, same, -⟩ := traffic.returned_ensure returned
      cases same
  | land other place reply =>
      cases own
      obtain ⟨refresh, found, result⟩ := traffic.exists_flight returned
      cases reply with
      | ok fetched => cases result
      | error same =>
          cases result
          refine ⟨⟨place, rfl⟩, ?_⟩
          intro other
          have landed := (traffic.returned_land found (.error fault)).2 other
          simp only [Cache.get?, Cache.isStale?, landed]
          by_cases here : other = key
          · subst here
            rw [if_pos rfl]
            obtain ⟨rows, stale⟩ := refresh.fill_error (traffic.cache.entries.get? other) fault
            exact ⟨rows, stale.imp id fun turned => ⟨rfl, turned⟩⟩
          · rw [if_neg here]
            exact ⟨rfl, .inl rfl⟩

/-- What a call returns in a step that follows a run, and what the cache holds then. -/
structure Coherent (early : List (Cache.Step ρ)) (step : Cache.Step ρ) (before after : Traffic ρ) :
    Prop where
  rows : ∀ key rows, step.key? = some key → before.returned step = .rows (.ok rows) →
    after.cache.get? key = some rows ∨
      after.cache.get? key = none ∧ ∃ place refresh, step = .land key place (.ok rows) ∧
        before.flight? key place = some refresh ∧ BeganCached early key refresh
  fault : ∀ key fault, step.key? = some key → before.returned step = .rows (.error fault) →
    (∃ place, step = .land key place (.error fault)) ∧
      ∀ other, after.cache.get? other = before.cache.get? other ∧
        (after.cache.isStale? other = before.cache.isStale? other ∨
          other = key ∧ before.cache.isStale? other = some false ∧
            after.cache.isStale? other = some true)

theorem coherent (early : List (Cache.Step ρ)) (step : Cache.Step ρ) :
    Coherent early step (start.run early) ((start.run early).step step) where
  rows := by
    intro key rows own returned
    refine ((start.run early).returned_rows own returned).imp id ?_
    rintro ⟨gone, place, refresh, landing, found, noted⟩
    exact ⟨gone, place, refresh, landing, found, beganCached early (mem_flightsOf found) noted⟩
  fault := by
    intro key fault own returned
    exact (start.run early).returned_fault own returned

end Traffic

/-! ### How often the source is asked -/

/-- What the calls for a list ask the source, whatever others do while they wait. -/
structure Desk.AsksForList (world : World σ ρ) (state : σ) (desk : Desk ρ) (key : ListKey) :
    Prop where
  found : desk.cache.isStale? key = some false →
    (desk.followCall world state (desk.startEnsure key)).questions = []
  ensured : desk.cache.isStale? key ≠ some false →
    (desk.followCall world state (desk.startEnsure key)).questions.map Question.ask = [.fetch key]
  refreshed :
    (desk.followCall world state (desk.startRefresh key)).questions.map Question.ask = [.fetch key]
  invalidated :
    (desk.followCall world state (desk.startInvalidate key)).questions.map Question.ask =
      [.fetch key]

theorem Desk.questions_refreshing (world : World σ ρ) (state : σ) (desk begun : Desk ρ)
    (refresh : Refresh) :
    (desk.followCall world state (begun, .waiting (.refreshing refresh))).questions.map
      Question.ask = [.fetch refresh.key] := by
  rcases replies : world state begun (Call.refreshing refresh).ask with ⟨after, left, reply⟩
  have course := Call.follow_finished replies rfl
  simp only [followCall, course, Course.after, List.nil_append, List.map_cons, List.map_nil]
  rfl

theorem Desk.asksForList (world : World σ ρ) (state : σ) (desk : Desk ρ) (key : ListKey) :
    desk.AsksForList world state key where
  found := by
    intro fresh
    obtain ⟨rows, found⟩ := desk.cache.exists_fresh key fresh
    simp only [followCall, startEnsure, found]
  ensured := by
    intro notFresh
    have missing := (desk.cache.fresh?_eq_none key).mpr notFresh
    simp only [startEnsure, missing]
    exact desk.questions_refreshing world state _ _
  refreshed := desk.questions_refreshing world state _ _
  invalidated := desk.questions_refreshing world state _ _

namespace Traffic

/-- Whatever calls come in between, rows that are returned are those under the key, or those that
were fetched for a list that has been removed meanwhile, and a fault changes no list. The source
is asked once, but for a list that is found fresh not at all. -/
theorem returned_coherent (early : List (Cache.Step ρ)) (step : Cache.Step ρ) :
    Coherent early step (start.run early) ((start.run early).step step) ∧
      ∀ (world : World σ ρ) (state : σ) (desk : Desk ρ) (key : ListKey),
        desk.AsksForList world state key :=
  ⟨coherent early step, Desk.asksForList⟩

/-! ### A list that is removed while it is refreshed -/

def removedMeanwhile : List (Cache.Step Nat) :=
  [.set .requisitions [1], .refresh .requisitions, .remove .requisitions]

/-- The caller gets the fetched rows, and the list stays removed. -/
theorem returned_removedMeanwhile :
    (start.run removedMeanwhile).returned (.land .requisitions 0 (.ok [2])) = .rows (.ok [2]) ∧
      ((start.run removedMeanwhile).step (.land .requisitions 0 (.ok [2]))).cache.get?
        .requisitions = none ∧
      ∃ refresh, BeganCached removedMeanwhile .requisitions refresh := by
  have returned : (start.run removedMeanwhile).returned (.land .requisitions 0 (.ok [2])) =
      .rows (.ok [2]) := rfl
  have gone : ((start.run removedMeanwhile).step (.land .requisitions 0 (.ok [2]))).cache.get?
      .requisitions = none := rfl
  refine ⟨returned, gone, ?_⟩
  have coherent := (returned_coherent (σ := Unit) removedMeanwhile
    (.land .requisitions 0 (.ok [2]))).1
  rcases coherent.rows .requisitions [2] rfl returned with held | ⟨-, place, refresh, -, -, began⟩
  · rw [gone] at held
    cases held
  · exact ⟨refresh, began⟩

end Traffic

end Depot
