import Depot.Proofs.Cache.Local
import Mathlib.Data.List.Induction
import Mathlib.Data.List.Infix

/-!
Contract: the log of a cache tells which lists it keeps.

The log says of every list when it is put, changed or dropped, so whoever has read all of it
knows what is kept: under a key the last change that is more than a mark decides. Of a step
that adds no such change for a key nothing can be seen in the list under the key.

Owns: what is read from a log, and what a step adds to it.
Does not own: what a step on a key publishes (`Depot.Proofs.Cache.Local`).
-/

namespace Depot

variable {ρ : Type}

/-! ### Reading a log -/

/-- The last change that is more than a mark. -/
def lastChange? (changes : List Change) : Option Change :=
  (changes.filter (· ≠ .invalidated)).getLast?

/-- Whether a list is kept after a change, if it is known whether one was kept before. -/
def Change.leaves (kept : Bool) : Change → Bool
  | .updated | .refreshed => true
  | .invalidated => kept
  | .removed => false

theorem lastChange?_append (changes : List Change) (change : Change) :
    lastChange? (changes ++ [change]) =
      if change = .invalidated then lastChange? changes else some change := by
  unfold lastChange?
  by_cases mark : change = .invalidated
  · simp [mark]
  · simp [mark]

/-- The last change that is more than a mark decides what is kept after all of them. -/
theorem foldl_leaves (changes : List Change) :
    (changes.foldl Change.leaves false = true ↔
        lastChange? changes = some .updated ∨ lastChange? changes = some .refreshed) ∧
      (changes.foldl Change.leaves false = false ↔
        lastChange? changes = none ∨ lastChange? changes = some .removed) := by
  induction changes using List.reverseRecOn with
  | nil => simp [lastChange?]
  | append_singleton changes change inductionHypothesis =>
      rw [List.foldl_append, lastChange?_append]
      cases change with
      | invalidated => exact inductionHypothesis
      | updated | refreshed | removed => simp [Change.leaves]

/-- The changes of one key among events. -/
def changesUnder (key : ListKey) (events : List Event) : List Change :=
  events.filterMap fun event => if event.key = key then some event.change else none

theorem mem_changesUnder {key : ListKey} {events : List Event} {change : Change} :
    change ∈ changesUnder key events ↔ ⟨key, change⟩ ∈ events := by
  simp only [changesUnder, List.mem_filterMap, Option.ite_none_right_eq_some, Option.some.injEq]
  constructor
  · rintro ⟨event, member, rfl, rfl⟩
    exact member
  · intro member
    exact ⟨_, member, rfl, rfl⟩

/-- The log tells of every key whether there is a list under it. -/
structure Cache.IsTold (cache : Cache ρ) : Prop where
  cached : ∀ key, (cache.get? key).isSome ↔
    lastChange? (cache.changesOf key) = some .updated ∨
      lastChange? (cache.changesOf key) = some .refreshed
  absent : ∀ key, cache.get? key = none ↔
    lastChange? (cache.changesOf key) = none ∨ lastChange? (cache.changesOf key) = some .removed

/-- A log that has been followed change by change tells of every key. -/
theorem Cache.isTold_of_foldl {cache : Cache ρ}
    (followed : ∀ key, (cache.get? key).isSome = (cache.changesOf key).foldl Change.leaves false) :
    cache.IsTold where
  cached := by
    intro key
    rw [followed key]
    exact (foldl_leaves _).1
  absent := by
    intro key
    rw [← (foldl_leaves _).2, ← followed key]
    simp

namespace Traffic

variable (traffic : Traffic ρ)

/-! ### What a step adds to the log -/

/-- What a step adds to the log. -/
def news (step : Cache.Step ρ) : List Event :=
  (traffic.step step).cache.events.drop traffic.cache.events.length

theorem news_eq {step : Cache.Step ρ} {added : List Event}
    (events : (traffic.step step).cache.events = traffic.cache.events ++ added) :
    traffic.news step = added := by
  rw [news, events, List.drop_left]

theorem events_invalidate (key : ListKey) :
    traffic.cache.events <+: (traffic.invalidate key).cache.events := by
  change traffic.cache.events <+: (traffic.cache.markStale key).events
  unfold Cache.markStale
  split
  next => exact List.prefix_refl _
  next => exact List.prefix_append _ _

theorem events_sweep (keys : List ListKey) :
    traffic.cache.events <+: (keys.foldl invalidate traffic).cache.events := by
  induction keys generalizing traffic with
  | nil => exact List.prefix_refl _
  | cons key keys inductionHypothesis =>
      exact (traffic.events_invalidate key).trans (inductionHypothesis (traffic.invalidate key))

theorem events_failed (refresh : Refresh) (fault : SourceFault) :
    (traffic.land refresh (.error fault)).cache.events = traffic.cache.events := by
  change (traffic.cache.markFailed refresh).events = traffic.cache.events
  unfold Cache.markFailed
  split
  next => rfl
  next => split <;> rfl

theorem events_land (refresh : Refresh) (reply : Except SourceFault (List ρ)) :
    traffic.cache.events <+: (traffic.land refresh reply).cache.events := by
  cases reply with
  | error fault =>
      rw [events_failed]
  | ok rows =>
      change _ <+: (traffic.cache.land refresh (.ok rows)).1.events
      by_cases kept : refresh.IsKept (traffic.cache.entries.get? refresh.key)
      · rw [traffic.cache.land_kept refresh rows kept]
        exact List.prefix_append _ _
      · rw [traffic.cache.land_not_kept refresh rows kept]

/-- Nothing is taken back that has been logged. -/
theorem events_prefix (step : Cache.Step ρ) :
    traffic.cache.events <+: (traffic.step step).cache.events := by
  cases step with
  | set | clear => exact List.prefix_append _ _
  | refresh => exact List.prefix_refl _
  | invalidate key => exact traffic.events_invalidate key
  | sweep scope => exact traffic.events_sweep _
  | update key change =>
      change _ <+: (traffic.update key change).cache.events
      rw [cache_update]
      cases present : traffic.cache.entries.get? key with
      | none =>
          rw [traffic.cache.update_absent key change present]
      | some entry =>
          rw [traffic.cache.update_present key change present]
          exact List.prefix_append _ _
  | ensure key =>
      cases fresh : traffic.cache.fresh? key with
      | some rows => simp only [Traffic.step, fresh, List.prefix_refl]
      | none =>
          simp only [Traffic.step, fresh]
          exact List.prefix_refl _
  | remove key =>
      change _ <+: (traffic.cache.remove key).1.events
      unfold Cache.remove
      split
      next => exact List.prefix_refl _
      next => exact List.prefix_append _ _
  | land key place reply =>
      cases found : traffic.flight? key place with
      | none => simp only [Traffic.step, found, List.prefix_refl]
      | some refresh =>
          simp only [Traffic.step, found]
          exact traffic.events_land refresh reply

theorem events_step (step : Cache.Step ρ) :
    (traffic.step step).cache.events = traffic.cache.events ++ traffic.news step :=
  (List.prefix_iff_eq_append.mp (traffic.events_prefix step)).symm

/-! ### What a step does under a key -/

theorem changesOf_news (key : ListKey) (step : Cache.Step ρ) :
    (traffic.step step).cache.changesOf key =
      traffic.cache.changesOf key ++ changesUnder key (traffic.news step) := by
  change changesUnder key (traffic.step step).cache.events = _
  rw [events_step, changesUnder, List.filterMap_append]
  rfl

theorem changesUnder_news {key : ListKey} {step : Cache.Step ρ} {changes : List Change}
    (published : (traffic.step step).cache.changesOf key =
      traffic.cache.changesOf key ++ changes) :
    changesUnder key (traffic.news step) = changes := by
  rw [changesOf_news] at published
  exact List.append_cancel_left published

/-- Under a key nothing is seen of a step, or what is seen of a step on the key. -/
inductive Seen (key : ListKey) (step : Cache.Step ρ) : Prop
  | nothing (changes : changesUnder key (traffic.news step) = [])
      (entry : (traffic.step step).cache.entries.get? key = traffic.cache.entries.get? key)
  | own (own : Cache.Step ρ)
      (changes : changesUnder key (traffic.news step) = (traffic.view key).changes own)
      (entry : (traffic.step step).cache.entries.get? key =
        ((traffic.view key).step key own).entry)

variable {traffic} {key : ListKey} {step : Cache.Step ρ}

theorem Passes.seen (passes : traffic.Passes key (traffic.step step)) :
    traffic.Seen key step := by
  apply Seen.nothing
  · apply changesUnder_news
    rw [List.append_nil]
    exact passes.changes
  · exact passes.entry

theorem seen_own (keyed : step.key? = some key) : traffic.Seen key step := by
  apply Seen.own step
  · exact traffic.changesUnder_news (traffic.changesOf_step keyed)
  · exact congrArg View.entry (traffic.view_step step keyed)

theorem seen_keyed {own : ListKey} (keyed : step.key? = some own) : traffic.Seen key step := by
  by_cases same : own = key
  · exact seen_own (same ▸ keyed)
  · exact (traffic.passes_step keyed same).seen

/-- A sweep is seen as an invalidation under every key that it reaches. -/
theorem seen_sweep (scope : Scope) : traffic.Seen key (.sweep scope) := by
  by_cases reached : key ∈ traffic.cache.keysIn scope
  · obtain ⟨middle, before, after⟩ :=
      traffic.sweep_reached (traffic.cache.nodup_keysIn scope) reached
    have view := before.view_eq
    apply Seen.own (.invalidate key)
    · apply changesUnder_news
      refine after.changes.trans ?_
      rw [middle.changesOf_step rfl, before.changes, view]
      rfl
    · have stepped := congrArg View.entry (middle.view_step (.invalidate key) rfl)
      rw [view] at stepped
      exact after.entry.trans stepped
  · exact (traffic.passes_sweep reached).seen

theorem seen (key : ListKey) (step : Cache.Step ρ) : traffic.Seen key step := by
  cases step with
  | sweep scope => exact seen_sweep scope
  | clear =>
      apply Seen.own (.remove key)
      · apply changesUnder_news
        rw [changesOf_clear]
        exact traffic.changesOf_step rfl
      · rfl
  | set | update | ensure | refresh | invalidate | land | remove => exact seen_keyed rfl

end Traffic

/-! ### The list and its changes -/

/-- The changes of a list tell whether it is kept afterwards, and if they are only marks then
it is the list as before. -/
structure Announces (before after : Option (List ρ)) (changes : List Change) : Prop where
  kept : after.isSome = changes.foldl Change.leaves before.isSome
  quiet : (∀ change ∈ changes, change = .invalidated) → after = before
  marked : .invalidated ∈ changes → before.isSome

theorem Announces.silent {before after : Option (List ρ)} (same : after = before) :
    Announces before after [] :=
  ⟨congrArg Option.isSome same, fun _ => same, fun marked => absurd marked List.not_mem_nil⟩

namespace View

variable (view : View ρ)

theorem announces_land (refresh : Refresh) (reply : Except SourceFault (List ρ)) :
    Announces (view.entry.map Entry.rows) ((refresh.fill view.entry reply).map Entry.rows)
      (refresh.changes view.entry reply) := by
  cases reply with
  | error fault =>
      apply Announces.silent
      cases view.entry with
      | none => rfl
      | some entry => exact congrArg some (refresh.blame_rows entry)
  | ok rows =>
      by_cases kept : refresh.IsKept view.entry
      · simp only [Refresh.fill, Refresh.changes, kept, ↓reduceIte]
        exact ⟨rfl, by simp, by simp⟩
      · simp only [Refresh.fill, Refresh.changes, kept, ↓reduceIte]
        exact .silent rfl

/-- What a step on a key publishes tells of the list under it. -/
theorem announces_step (key : ListKey) (step : Cache.Step ρ) :
    Announces (view.entry.map Entry.rows) ((view.step key step).entry.map Entry.rows)
      (view.changes step) := by
  cases step with
  | sweep | clear | refresh => exact .silent rfl
  | ensure =>
      simp only [View.step]
      split <;> exact .silent rfl
  | set _ rows => exact ⟨rfl, by simp [changes], by simp [changes]⟩
  | update _ change =>
      simp only [View.step, View.update, changes]
      cases absent : view.entry with
      | none => exact .silent (congrArg (Option.map Entry.rows) absent)
      | some entry => exact ⟨rfl, by simp, by simp⟩
  | invalidate =>
      simp only [View.step, View.begin, View.mark, changes]
      cases view.entry with
      | none => exact .silent rfl
      | some entry => exact ⟨rfl, fun _ => rfl, fun _ => rfl⟩
  | remove =>
      simp only [View.step, View.forget, changes]
      cases view.entry with
      | none => exact .silent rfl
      | some entry => exact ⟨rfl, by simp, by simp⟩
  | land _ place reply =>
      simp only [View.step, changes]
      cases view.flights[place]? with
      | none => exact .silent rfl
      | some refresh => exact view.announces_land refresh reply

end View

namespace Traffic

variable (traffic : Traffic ρ)

theorem announces_news (key : ListKey) (step : Cache.Step ρ) :
    Announces (traffic.cache.get? key) ((traffic.step step).cache.get? key)
      (changesUnder key (traffic.news step)) := by
  rcases traffic.seen key step with ⟨changes, entry⟩ | ⟨own, changes, entry⟩
  · rw [changes]
    exact .silent (congrArg (Option.map Entry.rows) entry)
  · rw [changes, Cache.get?, Cache.get?, entry]
    exact (traffic.view key).announces_step key own

/-- Whoever reads the log of a run knows which lists are kept. -/
theorem isTold_run (steps : List (Cache.Step ρ)) :
    ((start : Traffic ρ).run steps).cache.IsTold := by
  apply Cache.isTold_of_foldl
  intro key
  induction steps using List.reverseRecOn with
  | nil => rfl
  | append_singleton early last inductionHypothesis =>
      rw [run_append, run_cons, run_nil, changesOf_news, List.foldl_append, ← inductionHypothesis]
      exact ((start.run early).announces_news key last).kept

/-! ### Steps that add nothing -/

/-- What the steps of traffic add to the log. -/
structure Logs (traffic : Traffic ρ) : Prop where
  /-- A step adds to the log and takes nothing back. -/
  grows : ∀ step, (traffic.step step).cache.events = traffic.cache.events ++ traffic.news step
  /-- A step that adds nothing but marks for a key leaves the list under it. -/
  quiet : ∀ step key, (∀ event ∈ traffic.news step, event.key = key → event.change = .invalidated) →
    (traffic.step step).cache.get? key = traffic.cache.get? key
  marked : ∀ step key, ⟨key, .invalidated⟩ ∈ traffic.news step → (traffic.cache.get? key).isSome
  failed : ∀ key place fault, traffic.news (.land key place (.error fault)) = []
  /-- A refresh that has nothing to land on is discarded, and the cache stays as it is. -/
  discarded : ∀ key place refresh rows, traffic.flight? key place = some refresh →
    ¬refresh.IsKept (traffic.cache.entries.get? key) →
      traffic.news (.land key place (.ok rows)) = [] ∧
        (traffic.step (.land key place (.ok rows))).cache = traffic.cache
  stored : ∀ key place refresh rows, traffic.flight? key place = some refresh →
    refresh.IsKept (traffic.cache.entries.get? key) →
      traffic.news (.land key place (.ok rows)) = [⟨key, .refreshed⟩] ∧
        (traffic.step (.land key place (.ok rows))).cache.get? key = some rows
  updated : ∀ key change, traffic.cache.get? key = none → traffic.news (.update key change) = []
  removed : ∀ key, traffic.cache.get? key = none → traffic.news (.remove key) = []
  cleared : ∃ keys : List ListKey, keys.Nodup ∧
    (∀ key, key ∈ keys ↔ (traffic.cache.get? key).isSome) ∧
      traffic.news .clear = keys.map fun key => ⟨key, .removed⟩

theorem logs (traffic : Traffic ρ) : traffic.Logs where
  grows := traffic.events_step
  quiet := by
    intro step key marks
    apply (traffic.announces_news key step).quiet
    intro change told
    exact marks ⟨key, change⟩ (mem_changesUnder.mp told) rfl
  marked := by
    intro step key told
    exact (traffic.announces_news key step).marked (mem_changesUnder.mpr told)
  failed := by
    intro key place fault
    apply news_eq
    rw [List.append_nil]
    cases found : traffic.flight? key place with
    | none => simp only [Traffic.step, found]
    | some refresh =>
        simp only [Traffic.step, found]
        exact traffic.events_failed refresh fault
  discarded := by
    intro key place refresh rows found refused
    have mine : refresh.key = key := key_of_mem_flightsOf (mem_flightsOf found)
    subst mine
    have same : (traffic.step (.land refresh.key place (.ok rows))).cache = traffic.cache := by
      simp only [Traffic.step, found]
      exact traffic.cache.land_not_kept refresh rows refused
    refine ⟨?_, same⟩
    apply news_eq
    rw [same, List.append_nil]
  stored := by
    intro key place refresh rows found kept
    have mine : refresh.key = key := key_of_mem_flightsOf (mem_flightsOf found)
    subst mine
    have stored : (traffic.step (.land refresh.key place (.ok rows))).cache =
        traffic.cache.store refresh rows := by
      simp only [Traffic.step, found]
      exact traffic.cache.land_kept refresh rows kept
    constructor
    · apply news_eq
      rw [stored]
      rfl
    · rw [stored]
      simp [Cache.get?, Cache.store, Cache.publish, Cache.putEntry]
  updated := by
    intro key change absent
    apply news_eq
    rw [List.append_nil]
    change (traffic.update key change).cache.events = _
    rw [cache_update, traffic.cache.update_absent key change (Option.map_eq_none_iff.mp absent)]
  removed := by
    intro key absent
    apply news_eq
    rw [List.append_nil]
    change (traffic.cache.remove key).1.events = _
    unfold Cache.remove
    rw [Option.map_eq_none_iff.mp absent]
  cleared := by
    refine ⟨traffic.cache.keys, traffic.cache.entries.distinct, ?_, news_eq _ rfl⟩
    intro key
    rw [Cache.get?, Option.isSome_map]
    exact traffic.cache.entries.mem_keys key

/-- The log of a run tells which lists are kept, and whatever step comes next adds to the log
what it does to them. -/
theorem log_tells_content (steps : List (Cache.Step ρ)) :
    (start.run steps).cache.IsTold ∧ (start.run steps).Logs :=
  ⟨isTold_run steps, logs _⟩

end Traffic

end Depot
