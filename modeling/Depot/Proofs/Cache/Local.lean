import Depot.Proofs.Cache.Traffic
import Mathlib.Data.List.Nodup

/-!
Contract: what a step does under the key that it is about, and under the others.

A step under a key depends on nothing but what is seen under that key: the view
afterwards, what the call returns and what is published are functions of the view
and the step. Under every other key a step lets the counter go on and does nothing
else. A sweep is one invalidation for each list that it reaches, and a clearing drops
every list.

Owns: `View.step`, `View.returned`, `View.changes`, and that traffic follows them.
Does not own: runs (`Depot.Proofs.Cache.Alone`).
-/

namespace Depot

variable {ρ : Type}

/-- The key that a step is about. A sweep and a clearing are about many. -/
def Cache.Step.key? : Cache.Step ρ → Option ListKey
  | .set key _ | .update key _ | .ensure key | .refresh key | .invalidate key
  | .land key _ _ | .remove key => some key
  | .sweep _ | .clear => none

/-- What a call returns in a step. -/
inductive Returned (ρ : Type) where
  | nothing
  /-- What was under the key before. -/
  | previous (rows : Option (List ρ))
  | rows (rows : Except SourceFault (List ρ))
  /-- The call waits for the source and returns later. -/
  | waits

/-! ### One key of a cache -/

namespace Cache

/-- What was published under a key, the oldest first. -/
def changesOf (cache : Cache ρ) (key : ListKey) : List Change :=
  cache.events.filterMap fun event => if event.key = key then some event.change else none

variable (cache : Cache ρ) (key other : ListKey)

@[simp]
theorem changesOf_publish (change : Change) :
    (cache.publish other change).changesOf key =
      cache.changesOf key ++ if other = key then [change] else [] := by
  by_cases same : other = key
  · simp [changesOf, publish, same]
  · simp [changesOf, publish, same]

@[simp]
theorem changesOf_putEntry (entry : Entry ρ) :
    (cache.putEntry other entry).changesOf key = cache.changesOf key := rfl

@[simp]
theorem changesOf_drawn : cache.drawn.changesOf key = cache.changesOf key := rfl

theorem changesOf_update (change : List ρ → List ρ) :
    (cache.update other change).1.changesOf key =
      cache.changesOf key ++
        if other = key then (if (cache.entries.get? other).isSome then [.updated] else [])
        else [] := by
  cases present : cache.entries.get? other with
  | none =>
      rw [cache.update_absent other change present]
      simp
  | some entry =>
      rw [cache.update_present other change present]
      simp

theorem changesOf_markStale :
    (cache.markStale other).changesOf key =
      cache.changesOf key ++
        if other = key then (if (cache.entries.get? other).isSome then [.invalidated] else [])
        else [] := by
  unfold markStale
  cases present : cache.entries.get? other with
  | none => simp
  | some entry => simp

theorem changesOf_remove :
    (cache.remove other).1.changesOf key =
      cache.changesOf key ++
        if other = key then (if (cache.entries.get? other).isSome then [.removed] else [])
        else [] := by
  unfold remove
  cases present : cache.entries.get? other with
  | none => simp
  | some entry =>
      simp only [changesOf_publish, Option.isSome_some, ↓reduceIte]
      rfl

theorem mem_keysIn (scope : Scope) :
    key ∈ cache.keysIn scope ↔ (cache.get? key).isSome ∧ key.isIn scope := by
  simp [keysIn, keys, get?, Keyed.mem_keys]

theorem nodup_keysIn (scope : Scope) : (cache.keysIn scope).Nodup :=
  cache.entries.distinct.filter _

/-- Of the removals of distinct keys, one is under each of them. -/
theorem changes_removals {keys : List ListKey} (distinct : keys.Nodup) :
    (keys.map fun key => (⟨key, .removed⟩ : Event)).filterMap
        (fun event => if event.key = key then some event.change else none) =
      if key ∈ keys then [.removed] else [] := by
  induction keys with
  | nil => rfl
  | cons first keys inductionHypothesis =>
      obtain ⟨fresh, rest⟩ := List.nodup_cons.mp distinct
      by_cases same : first = key
      · subst same
        simp [inductionHypothesis rest, fresh]
      · have apart : ¬key = first := fun equal => same equal.symm
        simp [same, apart, inductionHypothesis rest]

theorem changesOf_clear :
    cache.clear.changesOf key =
      cache.changesOf key ++
        if (cache.entries.get? key).isSome then [.removed] else [] := by
  have published := changes_removals key cache.entries.distinct
  have cached := cache.entries.mem_keys key
  simp only [changesOf, clear, List.filterMap_append]
  simp only [← cached]
  exact congrArg (cache.changesOf key ++ ·) published

theorem remove_previous : (cache.remove key).2 = (cache.entries.get? key).map Entry.rows := by
  unfold remove
  cases present : cache.entries.get? key with
  | none => rfl
  | some entry => rfl

theorem update_previous (change : List ρ → List ρ) :
    (cache.update key change).2 = (cache.entries.get? key).map Entry.rows := by
  cases present : cache.entries.get? key with
  | none => rw [cache.update_absent key change present]; rfl
  | some entry => rw [cache.update_present key change present]; rfl

end Cache

namespace Refresh

/-- What a landing refresh returns. -/
def result (refresh : Refresh) (entry : Option (Entry ρ)) :
    Except SourceFault (List ρ) → Except SourceFault (List ρ)
  | .ok rows =>
      .ok (if refresh.IsKept entry then rows else (entry.map Entry.rows).getD rows)
  | .error fault => .error fault

/-- What a landing refresh publishes. -/
def changes (refresh : Refresh) (entry : Option (Entry ρ)) :
    Except SourceFault (List ρ) → List Change
  | .ok _ => if refresh.IsKept entry then [.refreshed] else []
  | .error _ => []

end Refresh

namespace Cache

variable (cache : Cache ρ) (key : ListKey) (refresh : Refresh)

theorem result_land (reply : Except SourceFault (List ρ)) :
    (cache.land refresh reply).2 = refresh.result (cache.entries.get? refresh.key) reply := by
  cases reply with
  | error fault => rfl
  | ok rows =>
      cases present : cache.entries.get? refresh.key with
      | none =>
          by_cases absent : refresh.writtenAt = none
          · simp [land, present, Refresh.result, Refresh.IsKept, absent]
          · simp [land, present, Refresh.result, Refresh.IsKept, absent,
              Option.isSome_iff_ne_none]
      | some entry =>
          have base : refresh.writtenAt.getD 0 = refresh.base := rfl
          by_cases written : entry.written = refresh.base
          · by_cases order : entry.fetched ≤ refresh.ticket
            · have later : ¬refresh.ticket < entry.fetched := Nat.not_lt.mpr order
              simp [land, present, Refresh.result, Refresh.IsKept, base, written, order, later]
            · have earlier : refresh.ticket < entry.fetched := Nat.lt_of_not_le order
              simp [land, present, Refresh.result, Refresh.IsKept, base, written, order, earlier]
          · simp [land, present, Refresh.result, Refresh.IsKept, base, written]

theorem changesOf_land (reply : Except SourceFault (List ρ)) :
    (cache.land refresh reply).1.changesOf key =
      cache.changesOf key ++
        if refresh.key = key then refresh.changes (cache.entries.get? refresh.key) reply
        else [] := by
  cases reply with
  | error fault =>
      have silent : (cache.markFailed refresh).changesOf key = cache.changesOf key := by
        unfold markFailed
        split
        · rfl
        · split
          · rw [changesOf_putEntry]
          · rfl
      change (cache.markFailed refresh).changesOf key = _
      rw [silent]
      simp [Refresh.changes]
  | ok rows =>
      by_cases kept : refresh.IsKept (cache.entries.get? refresh.key)
      · rw [cache.land_kept refresh rows kept]
        simp [store, Refresh.changes, kept]
      · rw [cache.land_not_kept refresh rows kept]
        simp [Refresh.changes, kept]

end Cache

/-! ### Steps on a view -/

namespace View

/-- The rows of a list that is there and not stale. -/
def fresh? (view : View ρ) : Option (List ρ) :=
  (view.entry.filter fun entry => !entry.stale).map Entry.rows

def update (view : View ρ) (change : List ρ → List ρ) : View ρ :=
  match view.entry with
  | none => view
  | some entry =>
      { view with
        entry := some { entry with rows := change entry.rows, written := view.clock }
        clock := view.clock + 1
        log := .wrote (change entry.rows) :: view.log }

def mark (view : View ρ) : View ρ :=
  { view with entry := view.entry.map fun entry => { entry with stale := true } }

/-- The view after a step on its key. -/
def step (key : ListKey) (view : View ρ) : Cache.Step ρ → View ρ
  | .set _ rows => view.set rows
  | .update _ change => view.update change
  | .ensure _ =>
      match view.fresh? with
      | some _ => view
      | none => view.begin key
  | .refresh _ => view.begin key
  | .invalidate _ => view.mark.begin key
  | .land _ place reply =>
      match view.flights[place]? with
      | none => view
      | some refresh => view.land refresh reply
  | .remove _ => view.forget
  | .sweep _ | .clear => view

/-- What a call returns in a step on the key of a view. -/
def returned (view : View ρ) : Cache.Step ρ → Returned ρ
  | .update _ _ | .remove _ => .previous (view.entry.map Entry.rows)
  | .ensure _ =>
      match view.fresh? with
      | some rows => .rows (.ok rows)
      | none => .waits
  | .refresh _ | .invalidate _ => .waits
  | .land _ place reply =>
      match view.flights[place]? with
      | none => .nothing
      | some refresh => .rows (refresh.result view.entry reply)
  | .set _ _ | .sweep _ | .clear => .nothing

/-- What a step on the key of a view publishes. -/
def changes (view : View ρ) : Cache.Step ρ → List Change
  | .set _ _ => [.updated]
  | .update _ _ => if view.entry.isSome then [.updated] else []
  | .invalidate _ => if view.entry.isSome then [.invalidated] else []
  | .land _ place reply =>
      match view.flights[place]? with
      | none => []
      | some refresh => refresh.changes view.entry reply
  | .remove _ => if view.entry.isSome then [.removed] else []
  | .ensure _ | .refresh _ | .sweep _ | .clear => []

end View

/-! ### Steps of traffic -/

namespace Traffic

/-- What a call returns in a step. -/
def returned (traffic : Traffic ρ) : Cache.Step ρ → Returned ρ
  | .update key change => .previous (traffic.cache.update key change).2
  | .ensure key =>
      match traffic.cache.fresh? key with
      | some rows => .rows (.ok rows)
      | none => .waits
  | .refresh _ | .invalidate _ => .waits
  | .land key place reply =>
      match traffic.flight? key place with
      | none => .nothing
      | some refresh => .rows (traffic.cache.land refresh reply).2
  | .remove key => .previous (traffic.cache.remove key).2
  | .set _ _ | .sweep _ | .clear => .nothing

/-- Nothing is seen under a key but that the counter went on. -/
structure Passes (key : ListKey) (traffic after : Traffic ρ) : Prop where
  entry : after.cache.entries.get? key = traffic.cache.entries.get? key
  clock : traffic.cache.nextStamp ≤ after.cache.nextStamp
  flights : after.flightsOf key = traffic.flightsOf key
  log : after.log key = traffic.log key
  changes : after.cache.changesOf key = traffic.cache.changesOf key

namespace Passes

variable {key : ListKey} {traffic middle after : Traffic ρ}

theorem refl (key : ListKey) (traffic : Traffic ρ) : traffic.Passes key traffic :=
  ⟨rfl, Nat.le_refl _, rfl, rfl, rfl⟩

theorem trans (first : traffic.Passes key middle) (second : middle.Passes key after) :
    traffic.Passes key after where
  entry := second.entry.trans first.entry
  clock := Nat.le_trans first.clock second.clock
  flights := second.flights.trans first.flights
  log := second.log.trans first.log
  changes := second.changes.trans first.changes

theorem view_eq (passes : traffic.Passes key after) :
    after.view key = { traffic.view key with clock := after.cache.nextStamp } := by
  simp only [view, passes.entry, passes.flights, passes.log]

end Passes

variable (traffic : Traffic ρ) {key other : ListKey}

theorem cache_update (change : List ρ → List ρ) :
    (traffic.update key change).cache = (traffic.cache.update key change).1 := by
  cases present : traffic.cache.entries.get? key with
  | none => simp only [update, traffic.cache.update_absent key change present]
  | some entry =>
      simp only [update, traffic.cache.update_present key change present]
      rfl

theorem view_update (change : List ρ → List ρ) :
    (traffic.update key change).view key = (traffic.view key).update change := by
  cases present : traffic.cache.entries.get? key with
  | none =>
      simp only [update, traffic.cache.update_absent key change present]
      simp [View.update, view, present]
  | some entry =>
      simp only [update, traffic.cache.update_present key change present]
      simp [View.update, view, present, note, flightsOf, Cache.publish, Cache.putEntry,
        Cache.drawn]

theorem view_begin :
    (traffic.depart (traffic.cache.begin key)).view key = (traffic.view key).begin key := by
  simp [view, View.begin, depart, note, flightsOf, Cache.begin, Cache.writtenStamp?,
    Cache.drawn]

theorem view_mark :
    ({ traffic with cache := traffic.cache.markStale key } : Traffic ρ).view key =
      (traffic.view key).mark := by
  simp [view, View.mark, flightsOf]

theorem view_invalidate :
    (traffic.invalidate key).view key = (traffic.view key).mark.begin key := by
  rw [← view_mark]
  exact view_begin { traffic with cache := traffic.cache.markStale key }

theorem view_remove :
    (traffic.step (.remove key)).view key = (traffic.view key).forget := by
  simp [step, view, View.forget, flightsOf]

theorem fresh?_view : (traffic.view key).fresh? = traffic.cache.fresh? key := rfl

theorem flight?_view (place : Nat) :
    (traffic.view key).flights[place]? = traffic.flight? key place := rfl

/-- A step on a key acts on the view of the key. -/
theorem view_step (step : Cache.Step ρ) (own : step.key? = some key) :
    (traffic.step step).view key = (traffic.view key).step key step := by
  cases step with
  | sweep | clear => cases own
  | set _ rows => cases own; exact traffic.view_set key rows
  | update _ change => cases own; exact traffic.view_update change
  | refresh => cases own; exact traffic.view_begin
  | invalidate => cases own; exact traffic.view_invalidate
  | remove => cases own; exact traffic.view_remove
  | ensure =>
      cases own
      cases fresh : traffic.cache.fresh? key with
      | some rows => simp only [Traffic.step, View.step, fresh?_view, fresh]
      | none =>
          simp only [Traffic.step, View.step, fresh?_view, fresh]
          exact traffic.view_begin
  | land _ place reply =>
      cases own
      cases found : traffic.flight? key place with
      | none => simp only [Traffic.step, View.step, flight?_view, found]
      | some refresh =>
          simp only [Traffic.step, View.step, flight?_view, found]
          exact traffic.view_land key (key_of_mem_flightsOf (mem_flightsOf found)) reply

theorem returned_view {step : Cache.Step ρ} (own : step.key? = some key) :
    traffic.returned step = (traffic.view key).returned step := by
  cases step with
  | sweep | clear => cases own
  | set | refresh | invalidate => rfl
  | update _ change =>
      cases own
      exact congrArg Returned.previous (traffic.cache.update_previous key change)
  | remove =>
      cases own
      exact congrArg Returned.previous (traffic.cache.remove_previous key)
  | ensure => cases own; rfl
  | land _ place reply =>
      cases own
      cases found : traffic.flight? key place with
      | none => simp only [returned, View.returned, flight?_view, found]
      | some refresh =>
          have mine : refresh.key = key := key_of_mem_flightsOf (mem_flightsOf found)
          simp only [returned, View.returned, flight?_view, found, Cache.result_land, mine]
          rfl

/-- A step on a key publishes what the view of the key tells. -/
theorem changesOf_step {step : Cache.Step ρ} (own : step.key? = some key) :
    (traffic.step step).cache.changesOf key =
      traffic.cache.changesOf key ++ (traffic.view key).changes step := by
  cases step with
  | sweep | clear => cases own
  | set _ rows =>
      cases own
      simp [Traffic.step, note, Cache.set, View.changes]
  | update _ change =>
      cases own
      have published := traffic.cache.changesOf_update key key change
      rw [if_pos rfl] at published
      rw [← traffic.cache_update] at published
      exact published
  | refresh =>
      cases own
      simp [Traffic.step, depart, note, Cache.begin, View.changes]
  | invalidate =>
      cases own
      have published := traffic.cache.changesOf_markStale key key
      rw [if_pos rfl] at published
      exact published
  | remove =>
      cases own
      have published := traffic.cache.changesOf_remove key key
      rw [if_pos rfl] at published
      exact published
  | ensure =>
      cases own
      cases fresh : traffic.cache.fresh? key with
      | some rows => simp [Traffic.step, fresh, View.changes]
      | none => simp [Traffic.step, fresh, depart, note, Cache.begin, View.changes]
  | land _ place reply =>
      cases own
      cases found : traffic.flight? key place with
      | none => simp [Traffic.step, View.changes, flight?_view, found]
      | some refresh =>
          have mine : refresh.key = key := key_of_mem_flightsOf (mem_flightsOf found)
          simp only [Traffic.step, View.changes, flight?_view, found]
          have published := traffic.cache.changesOf_land key refresh reply
          rw [if_pos mine, mine] at published
          exact published

/-! ### Steps on other keys -/

theorem passes_update (differs : other ≠ key) (change : List ρ → List ρ) :
    traffic.Passes key (traffic.update other change) := by
  have apart : ¬key = other := fun same => differs same.symm
  cases present : traffic.cache.entries.get? other with
  | none =>
      simp only [update, traffic.cache.update_absent other change present]
      exact .refl key traffic
  | some entry =>
      simp only [update, traffic.cache.update_present other change present]
      refine ⟨?_, Nat.le_succ _, rfl, ?_, ?_⟩
      · simp [note, Cache.publish, Cache.putEntry, Cache.drawn, apart]
      · simp [note, apart]
      · simp [note, differs]

theorem passes_begin (differs : other ≠ key) :
    traffic.Passes key (traffic.depart (traffic.cache.begin other)) := by
  have apart : ¬key = other := fun same => differs same.symm
  refine ⟨rfl, Nat.le_succ _, ?_, ?_, rfl⟩
  · simp [depart, note, flightsOf, differs]
  · simp [depart, note, apart]

theorem passes_invalidate (differs : other ≠ key) :
    traffic.Passes key (traffic.invalidate other) := by
  have apart : ¬key = other := fun same => differs same.symm
  have marked : traffic.Passes key { traffic with cache := traffic.cache.markStale other } := by
    refine ⟨?_, ?_, rfl, rfl, ?_⟩
    · simp [apart]
    · simp
    · rw [Cache.changesOf_markStale]
      simp [differs]
  exact marked.trans (passes_begin _ differs)

theorem passes_land (refresh : Refresh) (differs : refresh.key ≠ key)
    (reply : Except SourceFault (List ρ)) : traffic.Passes key (traffic.land refresh reply) := by
  have apart : ¬key = refresh.key := fun same => differs same.symm
  refine ⟨?_, ?_, ?_, ?_, ?_⟩
  · simp [land, note, apart]
  · simp [land, note]
  · have foreign : refresh ∉ traffic.flightsOf key := fun member =>
      differs (key_of_mem_flightsOf member)
    exact List.erase_filter.symm.trans (List.erase_of_not_mem foreign)
  · simp [land, note, apart]
  · change (traffic.cache.land refresh reply).1.changesOf key = _
    rw [Cache.changesOf_land, if_neg differs, List.append_nil]

/-- A step on another key passes. -/
theorem passes_step {step : Cache.Step ρ} (foreign : step.key? = some other)
    (differs : other ≠ key) : traffic.Passes key (traffic.step step) := by
  have apart : ¬key = other := fun same => differs same.symm
  cases step with
  | sweep | clear => cases foreign
  | set _ rows =>
      cases foreign
      refine ⟨?_, Nat.le_succ _, rfl, ?_, ?_⟩
      · simp [Traffic.step, note, apart]
      · simp [Traffic.step, note, apart]
      · simp [Traffic.step, note, Cache.set, differs]
  | update _ change => cases foreign; exact traffic.passes_update differs change
  | refresh => cases foreign; exact traffic.passes_begin differs
  | invalidate => cases foreign; exact traffic.passes_invalidate differs
  | remove =>
      cases foreign
      refine ⟨?_, ?_, rfl, rfl, ?_⟩
      · simp [Traffic.step, apart]
      · simp [Traffic.step]
      · change (traffic.cache.remove other).1.changesOf key = _
        rw [Cache.changesOf_remove]
        simp [differs]
  | ensure =>
      cases foreign
      cases fresh : traffic.cache.fresh? other with
      | some rows =>
          simp only [Traffic.step, fresh]
          exact .refl key traffic
      | none =>
          simp only [Traffic.step, fresh]
          exact traffic.passes_begin differs
  | land _ place reply =>
      cases foreign
      cases found : traffic.flight? other place with
      | none =>
          simp only [Traffic.step, found]
          exact .refl key traffic
      | some refresh =>
          simp only [Traffic.step, found]
          have mine : refresh.key = other := key_of_mem_flightsOf (mem_flightsOf found)
          exact traffic.passes_land refresh (mine ▸ differs) reply

/-! ### Sweeps and clearings -/

/-- A sweep passes a list that it does not reach. -/
theorem passes_sweep {keys : List ListKey} (away : key ∉ keys) :
    traffic.Passes key (keys.foldl invalidate traffic) := by
  induction keys generalizing traffic with
  | nil => exact .refl key traffic
  | cons first keys inductionHypothesis =>
      obtain ⟨differs, rest⟩ := not_or.mp (mt List.mem_cons.mpr away)
      have passed := traffic.passes_invalidate (Ne.symm differs)
      exact passed.trans (inductionHypothesis (traffic.invalidate first) rest)

/-- A sweep of a list is an invalidation of the list, with others before and after. -/
theorem sweep_reached {keys : List ListKey} (distinct : keys.Nodup) (reached : key ∈ keys) :
    ∃ middle, traffic.Passes key middle ∧
      (middle.step (.invalidate key)).Passes key (keys.foldl invalidate traffic) := by
  obtain ⟨before, after, rfl⟩ := List.append_of_mem reached
  have apart := (List.nodup_cons.mp (List.nodup_middle.mp distinct)).1
  obtain ⟨awayBefore, awayAfter⟩ := not_or.mp (mt List.mem_append.mpr apart)
  rw [List.foldl_append, List.foldl_cons]
  exact ⟨_, traffic.passes_sweep awayBefore, passes_sweep _ awayAfter⟩

theorem view_clear : (traffic.step .clear).view key = (traffic.view key).forget := rfl

theorem changesOf_clear :
    (traffic.step .clear).cache.changesOf key =
      (traffic.step (.remove key)).cache.changesOf key := by
  change traffic.cache.clear.changesOf key = (traffic.cache.remove key).1.changesOf key
  rw [Cache.changesOf_clear, Cache.changesOf_remove, if_pos rfl]

/-- A clearing passes a key without a list. -/
theorem passes_clear (absent : ¬(traffic.cache.get? key).isSome) :
    traffic.Passes key (traffic.step .clear) := by
  have missing : traffic.cache.entries.get? key = none := by
    simpa [Cache.get?] using absent
  refine ⟨?_, Nat.le_refl _, rfl, rfl, ?_⟩
  · exact missing.symm
  · change traffic.cache.clear.changesOf key = _
    rw [Cache.changesOf_clear, missing]
    simp

end Traffic

end Depot
