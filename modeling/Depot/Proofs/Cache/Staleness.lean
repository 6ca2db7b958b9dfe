import Depot.Proofs.Cache.Holding

/-!
Contract: whether a list is stale after a refresh of it has failed.

A failure is taken notice of when it is the newest thing known about the source:
no write and no landing of a later refresh came in between. Then the list is
stale as long as no rows are kept, and is fresh as soon as some are; so older
refreshes that land afterwards make it fresh again unless something has outdated
them. A refresh that began when there was no list never marks one.

Owns: when a failure leaves the list stale, and for how long.
Does not own: the rows of the list (`Depot.Proofs.Cache.Holding`).
-/

namespace Depot

variable {ρ : Type}

open Deed

/-- A refresh that is overtaken in a part of a log is overtaken in all of it. -/
theorem Deed.Overtaken.mono {early log : List (Deed ρ)} {refresh : Refresh}
    (overtaken : Overtaken early refresh) (part : early <:+ log) : Overtaken log refresh := by
  obtain ⟨later, rows, after, landed⟩ := overtaken
  exact ⟨later, rows, after.trans part.sublist, part.subset landed⟩

namespace View

variable {view : View ρ}

/-- There is no fresh list. -/
def NotFresh (view : View ρ) : Prop :=
  view.entry.map Entry.stale ≠ some false

/-- A failure that is taken notice of leaves the list stale, unless there was none
when the refresh began. -/
theorem notFresh_land_error_iff {refresh : Refresh} (kept : refresh.IsKept view.entry)
    (fault : SourceFault) :
    (view.land refresh (.error fault)).NotFresh ↔
      (view.entry.map Entry.stale = some false → refresh.writtenAt.isSome) := by
  cases present : view.entry with
  | none => simp [NotFresh, View.land, Refresh.fill, present]
  | some entry =>
      rw [present] at kept
      obtain ⟨written, order⟩ := kept
      cases known : refresh.writtenAt with
      | none => simp [NotFresh, View.land, Refresh.fill, Refresh.blame, present, known]
      | some stamp =>
          have same : entry.written = stamp := by simpa [Refresh.base, known] using written
          simp [NotFresh, View.land, Refresh.fill, Refresh.blame, present, known, same, order]

/-- Rows that are kept make the list fresh. -/
theorem not_notFresh_land {refresh : Refresh} (kept : refresh.IsKept view.entry)
    (rows : List ρ) : ¬(view.land refresh (.ok rows)).NotFresh := by
  simp [NotFresh, View.land, Refresh.fill, kept]

namespace NotFresh

/-- A failure never makes a list fresh. -/
theorem land_error (notFresh : view.NotFresh) (refresh : Refresh) (fault : SourceFault) :
    (view.land refresh (.error fault)).NotFresh := by
  cases present : view.entry with
  | none => simp [NotFresh, View.land, Refresh.fill, present]
  | some entry =>
      have stale : entry.stale = true := by simpa [NotFresh, present] using notFresh
      have still := refresh.blame_stale_of_stale entry stale
      simp [NotFresh, View.land, Refresh.fill, present, still]

/-- Rows that are dropped leave a list as it is. -/
theorem land_refused (notFresh : view.NotFresh) {refresh : Refresh}
    (refused : ¬refresh.IsKept view.entry) (rows : List ρ) :
    (view.land refresh (.ok rows)).NotFresh := by
  have same : refresh.fill view.entry (.ok rows) = view.entry := if_neg refused
  unfold NotFresh View.land
  rw [same]
  exact notFresh

theorem move {key : ListKey} {before after : View ρ} (move : Move key before after)
    (notFresh : before.NotFresh) : after.NotFresh := by
  cases move with
  | pass | begin => exact notFresh
  | update entry rows present => simpa [NotFresh, present] using notFresh
  | mark entry present => simp [NotFresh]

end NotFresh

end View

namespace Traffic

variable {key : ListKey} {traffic : Traffic ρ}

/-- A step makes a list fresh only if it sets it or lands a refresh that is not
outdated. -/
theorem notFresh_step {step : Cache.Step ρ} (dated : (traffic.view key).Dated)
    (filled : (traffic.view key).Filled) (kept : ¬step.Forgets key)
    (unset : ∀ rows, step ≠ .set key rows)
    (outdated : ∀ place rows refresh, step = .land key place (.ok rows) →
      traffic.flight? key place = some refresh → Outdated (traffic.log key) refresh)
    (notFresh : (traffic.view key).NotFresh) : ((traffic.step step).view key).NotFresh := by
  rcases traffic.step_cases key step with
    ⟨rows, same, -⟩ | ⟨place, reply, refresh, same, found, after⟩ | ⟨forgets, -⟩ | moves
  · exact absurd same (unset rows)
  · rw [after]
    cases reply with
    | error fault => exact notFresh.land_error refresh fault
    | ok rows =>
        have begun := dated.begun refresh (mem_flightsOf found)
        have past := outdated place rows refresh same found
        have refused := mt (filled.isKept_iff dated begun).mp (not_not_intro past)
        exact notFresh.land_refused refused rows
  · exact absurd forgets kept
  · exact View.Moves.invariant (fun _ _ move => View.NotFresh.move move) moves notFresh

/-- Whether a list, if there is one, is stale wherever a run is cut. -/
def StaysStale (traffic : Traffic ρ) (key : ListKey) (later : List (Cache.Step ρ)) : Prop :=
  ∀ early rest, later = early ++ rest → (traffic.run early).cache.isStale? key ≠ some false

/-- Whether every refresh of a list whose rows land in a run is outdated by then. -/
def LandsOutdated (traffic : Traffic ρ) (key : ListKey) (later : List (Cache.Step ρ)) : Prop :=
  ∀ early rest place refresh rows, later = early ++ .land key place (.ok rows) :: rest →
    (traffic.run early).flight? key place = some refresh →
    Outdated ((traffic.run early).log key) refresh

/-- From a list that is not fresh on, it stays so exactly when all rows that land are
those of outdated refreshes. -/
theorem staysStale_iff_landsOutdated {later : List (Cache.Step ρ)}
    (dated : (traffic.view key).Dated) (filled : (traffic.view key).Filled)
    (kept : ∀ step ∈ later, ¬step.Forgets key) (unset : ∀ rows, .set key rows ∉ later)
    (notFresh : (traffic.view key).NotFresh) :
    traffic.StaysStale key later ↔ traffic.LandsOutdated key later := by
  have known : ∀ early rest, later = early ++ rest →
      ((traffic.run early).view key).Dated ∧ ((traffic.run early).view key).Filled := by
    intro early rest cut
    refine dated_filled_run ?_ ⟨dated, filled⟩
    intro step member
    exact kept step (cut ▸ List.mem_append_left rest member)
  constructor
  · -- A refresh that lands and is not outdated leaves fresh rows behind, one step later.
    intro stays early rest place refresh rows cut found
    obtain ⟨datedThere, filledThere⟩ := known early _ cut
    have begun := datedThere.begun refresh (mem_flightsOf found)
    have mine := key_of_mem_flightsOf (mem_flightsOf found)
    apply Classical.byContradiction
    intro current
    have taken := (filledThere.isKept_iff datedThere begun).mpr current
    have fresh := View.not_notFresh_land taken rows
    rw [← (traffic.run early).view_land key mine] at fresh
    have stale := stays (early ++ [.land key place (.ok rows)]) rest (by simp [cut])
    rw [run_append, run_cons, run_nil] at stale
    simp only [step, found] at stale
    exact fresh stale
  · -- The other way no step makes the list fresh, as long as nothing current lands.
    intro outdated
    refine @prefix_invariant ρ (fun traffic => (traffic.view key).NotFresh) traffic later
      notFresh ?_
    intro early next rest cut still
    obtain ⟨datedThere, filledThere⟩ := known early _ cut
    have member : next ∈ later := cut ▸ List.mem_append_right early List.mem_cons_self
    refine notFresh_step datedThere filledThere (kept next member) ?_ ?_ still
    · intro rows same
      exact unset rows (same ▸ member)
    · intro place rows refresh same found
      exact outdated early rest place refresh rows (same ▸ cut) found

/-- The newest refresh of a list fails, and none that began after it lands. The list
is stale then and from then on exactly when it was stale already or was there when
the refresh began, and every older refresh whose rows land later is outdated by then. -/
theorem staysStale_iff (key : ListKey) (before later : List (Cache.Step ρ)) (place : Nat)
    (fault : SourceFault) (refresh : Refresh)
    (kept : ∀ step ∈ before ++ later, ¬step.Forgets key)
    (unset : ∀ rows, .set key rows ∉ later)
    (found : (start.run before).flight? key place = some refresh)
    (unwritten : ¬WrittenSince ((start.run before).log key) refresh)
    (newest : ¬Overtaken
      ((start.run (before ++ .land key place (.error fault) :: later)).log key) refresh) :
    ((start.run before).step (.land key place (.error fault))).StaysStale key later ↔
      ((start.run before).cache.isStale? key = some false → refresh.writtenAt.isSome) ∧
        ((start.run before).step (.land key place (.error fault))).LandsOutdated key later := by
  obtain ⟨dated, filled⟩ : ((start.run before).view key).Dated ∧
      ((start.run before).view key).Filled :=
    dated_filled_run (fun step member => kept step (List.mem_append_left later member))
      dated_filled_start
  have flying := mem_flightsOf found
  have mine := key_of_mem_flightsOf flying
  have first : ¬Overtaken ((start.run before).log key) refresh := by
    intro overtaken
    apply newest
    rw [run_append]
    exact overtaken.mono (log_suffix_run _ _ key)
  have taken := (filled.isKept_iff dated (dated.begun refresh flying)).mpr
    (not_or.mpr ⟨unwritten, first⟩)
  have failed : ((start.run before).step (.land key place (.error fault))).view key =
      ((start.run before).view key).land refresh (.error fault) := by
    simp only [step, found]
    exact view_land _ key mine _
  have datedThen := dated.land flying (.error fault)
  have filledThen := filled.land dated flying (.error fault)
  rw [← failed] at datedThen filledThen
  have noticed := View.notFresh_land_error_iff taken fault
  rw [← failed] at noticed
  have keptLater : ∀ step ∈ later, ¬step.Forgets key :=
    fun step member => kept step (List.mem_append_right before member)
  constructor
  · intro stays
    have notFresh := stays [] later rfl
    exact ⟨noticed.mp notFresh,
      (staysStale_iff_landsOutdated datedThen filledThen keptLater unset notFresh).mp stays⟩
  · rintro ⟨known, outdated⟩
    have notFresh := noticed.mpr known
    exact (staysStale_iff_landsOutdated datedThen filledThen keptLater unset notFresh).mpr
      outdated

/-- Of two refreshes of a list the newer one fails and the older one lands after a
write: the list stays stale. -/
theorem staysStale_written :
    ((start.run [.set .requisitions [1], .refresh .requisitions,
        .refresh .requisitions]).step
      (.land .requisitions 1 (.error .transport))).StaysStale .requisitions
        [.update .requisitions (List.cons 2), .land .requisitions 0 (.ok [3])] := by
  refine (staysStale_iff .requisitions _ _ 1 .transport ⟨.requisitions, some 1, 3⟩
    ?_ ?_ rfl ?_ ?_).mpr ⟨fun _ => rfl, ?_⟩
  · simp [Cache.Step.Forgets]
  · simp
  · have log : (start.run [.set .requisitions [1], .refresh .requisitions,
        .refresh .requisitions]).log .requisitions =
        [.began ⟨.requisitions, some 1, 3⟩, .began ⟨.requisitions, some 1, 2⟩,
          .wrote [1]] := rfl
    rw [log]
    simp
  · rintro ⟨other, rows, after, -⟩
    have log : (start.run [.set .requisitions [1], .refresh .requisitions,
        .refresh .requisitions, .land .requisitions 1 (.error .transport),
        .update .requisitions (List.cons 2), .land .requisitions 0 (.ok [3])]).log
          .requisitions =
        [.landed ⟨.requisitions, some 1, 2⟩ (.ok [3]), .wrote [2, 1],
          .landed ⟨.requisitions, some 1, 3⟩ (.error .transport),
          .began ⟨.requisitions, some 1, 3⟩, .began ⟨.requisitions, some 1, 2⟩,
          .wrote [1]] := rfl
    rw [List.cons_append, List.cons_append, List.cons_append, List.nil_append, log] at after
    simp at after
  · intro early rest place refresh rows cut found
    rcases early with _ | ⟨first, _ | ⟨second, early⟩⟩
    · simp at cut
    · simp only [List.cons_append, List.nil_append, List.cons.injEq] at cut
      obtain ⟨rfl, same, rfl⟩ := cut
      cases same
      cases found
      left
      change WrittenSince [.wrote [2, 1], .landed ⟨.requisitions, some 1, 3⟩ (.error .transport),
        .began ⟨.requisitions, some 1, 3⟩, .began ⟨.requisitions, some 1, 2⟩, .wrote [1]]
          ⟨.requisitions, some 1, 2⟩
      simp
    · simp at cut

/-- Not every failure of the newest refresh leaves the list stale: the list of two
refreshes that began when there was none is fresh after the older one has landed and
the newer one has failed. -/
theorem not_staysStale_absent :
    ¬∀ (key : ListKey) (before later : List (Cache.Step Nat)) (place : Nat)
      (fault : SourceFault) (refresh : Refresh),
      (∀ step ∈ before ++ later, ¬step.Forgets key) →
      (∀ rows, .set key rows ∉ later) →
      (start.run before).flight? key place = some refresh →
      ¬WrittenSince ((start.run before).log key) refresh →
      ¬Overtaken
        ((start.run (before ++ .land key place (.error fault) :: later)).log key) refresh →
      ((start.run before).step (.land key place (.error fault))).StaysStale key later := by
  intro alwaysStale
  have stays := alwaysStale .requisitions
    [.refresh .requisitions, .refresh .requisitions, .land .requisitions 0 (.ok [1])] [] 0
    .transport ⟨.requisitions, none, 2⟩ (by simp [Cache.Step.Forgets]) (by simp) rfl ?_ ?_
  · exact stays [] [] rfl rfl
  · have log : (start.run [.refresh .requisitions, .refresh .requisitions,
        .land .requisitions 0 (.ok [1])]).log .requisitions =
        [.landed ⟨.requisitions, none, 1⟩ (.ok [1]), .began ⟨.requisitions, none, 2⟩,
          .began ⟨.requisitions, none, 1⟩] := rfl
    rw [log]
    simp
  · rintro ⟨other, rows, after, landed⟩
    have log : (start.run [.refresh .requisitions, .refresh .requisitions,
        .land .requisitions 0 (.ok [1]), .land .requisitions 0 (.error .transport)]).log
          .requisitions =
        [.landed ⟨.requisitions, none, 2⟩ (.error .transport),
          .landed ⟨.requisitions, none, 1⟩ (.ok [1]), .began ⟨.requisitions, none, 2⟩,
          .began ⟨.requisitions, none, 1⟩] := rfl
    rw [List.cons_append, List.cons_append, List.cons_append, List.nil_append, log] at after
    simp at after

end Traffic

end Depot
