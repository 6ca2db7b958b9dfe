import Depot.Proofs.Cache.Local
import Depot.Proofs.Cache.Stamps
import Depot.Proofs.Edit.Course

/-!
Contract: what a list holds after an edit of it has failed altogether.

The write of an edit is refused, the old rows are put back, and the refresh that follows
fails as well. Refreshes of the list that others began may land at any moment. Those that
land before the refusal are overwritten. Those that are still on their way then count on
a write stamp that is gone, since putting rows back is a local write. Only a refresh that
began afterwards could bring other rows.

Owns: edits amid other traffic, and what is left after they have failed.
Does not own: edits that succeed (`Depot.Proofs.Edit.Convergence`).
-/

namespace Depot

variable {ρ α : Type}

/-! ### Edits amid traffic -/

/-- What a user asks for. -/
inductive Request (ρ : Type) where
  | remove (request : Removal ρ)
  | save (request : Update ρ)

def Request.key : Request ρ → ListKey
  | .remove request => request.key
  | .save request => request.key

/-- Start what a user asks for. -/
def Desk.submit [Row ρ] (desk : Desk ρ) : Request ρ → Desk ρ × Edit.Progress ρ
  | .remove request => desk.remove request
  | .save request => desk.update request

theorem Desk.opening_submit [Row ρ] (desk : Desk ρ) (request : Request ρ) :
    desk.Opening request.key (desk.submit request) := by
  cases request with
  | remove request => exact desk.opening_remove request
  | save request => exact desk.opening_update request

/-- An edit that reaches the source has changed the list and kept the rows from before. -/
theorem Desk.submit_writing [Row ρ] {desk started : Desk ρ} {request : Request ρ} {edit : Edit ρ}
    (writing : desk.submit request = (started, .writing edit)) :
    ∃ change, started.cache = (desk.cache.update request.key change).1 ∧
      edit.mutation = ⟨request.key, (desk.cache.update request.key change).2, .pending⟩ := by
  have opening := desk.opening_submit request
  rw [writing] at opening
  generalize opened : (started, Edit.Progress.writing edit) = result at opening
  cases opening with
  | declined => cases opened
  | shown change ask success count =>
      rw [Desk.begin_eq] at opened
      cases opened
      exact ⟨change, rfl, rfl⟩

/-- Whether the step leaves alone what is under a key, but for refreshes. -/
def Cache.Step.Spares (key : ListKey) : Cache.Step ρ → Prop
  | .set other _ | .update other _ | .remove other => other ≠ key
  | .clear => False
  | .ensure _ | .refresh _ | .invalidate _ | .sweep _ | .land _ _ _ => True

namespace Traffic

/-- The traffic with the cache that a step of an edit has left. -/
def withCache (traffic : Traffic ρ) (cache : Cache ρ) : Traffic ρ :=
  { traffic with cache }

/-- Whether in a run from here a refresh of the key stores rows that had not begun yet. -/
def StoresLater (traffic : Traffic ρ) (key : ListKey) (steps : List (Cache.Step ρ)) : Prop :=
  ∃ early place rows rest refresh, steps = early ++ .land key place (.ok rows) :: rest ∧
    (traffic.run early).flight? key place = some refresh ∧
    refresh ∉ traffic.flightsOf key ∧
    refresh.IsKept ((traffic.run early).cache.entries.get? key)

variable (traffic : Traffic ρ) {key : ListKey}

/-- A step that spares a key lands a refresh of it, or makes its list stale, or does nothing
to it. -/
theorem entry_spared {step : Cache.Step ρ} (spares : step.Spares key) :
    (∃ place reply refresh, step = .land key place reply ∧
        traffic.flight? key place = some refresh ∧
        (traffic.step step).cache.entries.get? key =
          refresh.fill (traffic.cache.entries.get? key) reply) ∨
      (traffic.step step).cache.entries.get? key = traffic.cache.entries.get? key ∨
      (traffic.step step).cache.entries.get? key =
        (traffic.cache.entries.get? key).map fun entry => { entry with stale := true } := by
  have seen : (traffic.step step).cache.entries.get? key =
      ((traffic.step step).view key).entry := rfl
  cases step with
  | clear => exact spares.elim
  | set other | update other | remove other =>
      exact .inr (.inl (traffic.passes_step rfl spares).entry)
  | ensure other =>
      by_cases same : other = key
      · subst same
        rw [seen, traffic.view_step _ rfl, View.step]
        split <;> exact .inr (.inl rfl)
      · exact .inr (.inl (traffic.passes_step rfl same).entry)
  | refresh other =>
      by_cases same : other = key
      · subst same
        rw [seen, traffic.view_step _ rfl]
        exact .inr (.inl rfl)
      · exact .inr (.inl (traffic.passes_step rfl same).entry)
  | invalidate other =>
      by_cases same : other = key
      · subst same
        rw [seen, traffic.view_step _ rfl]
        exact .inr (.inr rfl)
      · exact .inr (.inl (traffic.passes_step rfl same).entry)
  | sweep scope =>
      by_cases reached : key ∈ traffic.cache.keysIn scope
      · obtain ⟨middle, before, after⟩ :=
          traffic.sweep_reached (traffic.cache.nodup_keysIn scope) reached
        have marked : (middle.step (.invalidate key)).cache.entries.get? key =
            (middle.cache.entries.get? key).map fun entry => { entry with stale := true } :=
          congrArg View.entry (middle.view_step (.invalidate key) rfl)
        rw [before.entry] at marked
        exact .inr (.inr (after.entry.trans marked))
      · exact .inr (.inl (traffic.passes_sweep reached).entry)
  | land other place reply =>
      by_cases same : other = key
      · subst same
        rw [seen, traffic.view_step _ rfl, View.step, flight?_view]
        cases found : traffic.flight? other place with
        | none => exact .inr (.inl rfl)
        | some refresh => exact .inl ⟨place, reply, refresh, rfl, found, rfl⟩
      · exact .inr (.inl (traffic.passes_step rfl same).entry)

/-- A list that an edit changes has its stamps in order. -/
theorem stamped_withCache_update {traffic : Traffic ρ} (stamped : (traffic.view key).Stamped)
    (change : List ρ → List ρ) :
    ((traffic.withCache (traffic.cache.update key change).1).view key).Stamped := by
  cases present : traffic.cache.entries.get? key with
  | none =>
      rw [traffic.cache.update_absent key change present]
      exact stamped
  | some entry =>
      have fetchStampLt : entry.fetched < traffic.cache.nextStamp := by
        have below := stamped.fetchStamp_lt
        rwa [view, present] at below
      rw [traffic.cache.update_present key change present]
      constructor
      · simp [view, withCache, Cache.publish, Cache.putEntry, Cache.drawn]
      · simpa [view, withCache, Cache.publish, Cache.putEntry, Cache.drawn] using
          Nat.lt_succ_of_lt fetchStampLt
      · intro refresh flying
        exact (stamped.issued refresh flying).later (Nat.le_succ _)

end Traffic

/-! ### Rows that were put back -/

/-- What is under a key after rows were put back: those rows, stale, with the write stamp
that was drawn for them. -/
structure PutBack (rows : List ρ) (stamp : Nat) (entry : Option (Entry ρ)) : Prop where
  rows_eq : entry.map Entry.rows = some rows
  written_eq : entry.map Entry.written = some stamp
  stale : entry.map Entry.stale = some true

namespace PutBack

variable {rows : List ρ} {stamp : Nat} {entry : Option (Entry ρ)}

theorem spoilt (putBack : PutBack rows stamp entry) :
    PutBack rows stamp (entry.map fun entry => { entry with stale := true }) := by
  obtain ⟨rowsEq, writtenEq, stale⟩ := putBack
  cases entry with
  | none => cases rowsEq
  | some entry => exact ⟨rowsEq, writtenEq, rfl⟩

/-- A refresh that fails leaves the rows there. -/
theorem failed (putBack : PutBack rows stamp entry) (refresh : Refresh) (fault : SourceFault) :
    PutBack rows stamp (refresh.fill entry (.error fault)) := by
  obtain ⟨rowsEq, writtenEq, stale⟩ := putBack
  cases entry with
  | none => cases rowsEq
  | some entry =>
      have spoilt : entry.stale = true := Option.some.inj stale
      refine ⟨?_, ?_, ?_⟩
      · simpa [Refresh.fill] using rowsEq
      · simpa [Refresh.fill] using writtenEq
      · simp [Refresh.fill, refresh.blame_stale_of_stale entry spoilt]

/-- Rows are kept on top of them only by a refresh that counts on their write stamp. -/
theorem base_eq (putBack : PutBack rows stamp entry) {refresh : Refresh}
    (kept : refresh.IsKept entry) : refresh.base = stamp := by
  rw [kept.base_eq, Entry.stamp, putBack.written_eq, Option.getD_some]

/-- While no refresh that begins later stores rows, the rows stay. -/
theorem run (traffic : Traffic ρ) {key : ListKey}
    (putBack : PutBack rows stamp (traffic.cache.entries.get? key))
    (older : ∀ refresh ∈ traffic.flightsOf key, refresh.base ≠ stamp)
    (steps : List (Cache.Step ρ)) (spares : ∀ step ∈ steps, step.Spares key)
    (quiet : ¬traffic.StoresLater key steps) :
    PutBack rows stamp ((traffic.run steps).cache.entries.get? key) := by
  refine @Traffic.prefix_invariant ρ
    (fun traffic => PutBack rows stamp (traffic.cache.entries.get? key))
    traffic steps putBack ?_ steps [] (List.append_nil steps).symm
  intro early next rest cut held
  have spared : next.Spares key := spares next (by rw [cut]; simp)
  -- Only a landing could bring other rows. An older refresh counts on a stamp from before the
  -- rows were put back, and a younger one is excluded by `quiet`.
  rcases (traffic.run early).entry_spared spared with
    ⟨place, reply, refresh, rfl, flying, after⟩ | same | spoilt
  · rw [after]
    cases reply with
    | error fault => exact held.failed refresh fault
    | ok fetched =>
        by_cases kept : refresh.IsKept ((traffic.run early).cache.entries.get? key)
        · have young : refresh ∉ traffic.flightsOf key := fun old =>
            older refresh old (held.base_eq kept)
          exact absurd ⟨early, place, fetched, rest, refresh, cut, flying, young, kept⟩ quiet
        · simpa [Refresh.fill, kept] using held
  · rw [same]
    exact held
  · rw [spoilt]
    exact held.spoilt

end PutBack

/-! ### Edits that fail altogether -/

/-- When the source refuses an edit, the rows from before are put back and marked stale,
whatever was under the key by then. -/
theorem putBack_replied (desk : Desk ρ) {edit : Edit ρ} {key : ListKey} {rows : List ρ}
    (waits : edit.mutation = ⟨key, some rows, .pending⟩) (fault : SourceFault)
    {refused : Desk ρ} {outcome : Outcome} {refresh : Refresh}
    (refuses : desk.replied edit (.error fault : Except SourceFault α) =
      (refused, .settling outcome refresh)) :
    outcome = .rolledBack ∧ refresh.key = key ∧
      PutBack rows desk.cache.nextStamp (refused.cache.entries.get? key) := by
  have pending : edit.mutation.state = .pending := by rw [waits]
  rw [desk.replied_error edit pending fault] at refuses
  cases refuses
  refine ⟨rfl, ?_, ?_⟩
  · rw [Cache.key_beginInvalidate, waits]
  · simp only [waits, Mutation.restored, Cache.beginInvalidate, Cache.entries_begin,
      Cache.entries_markStale, Cache.entries_set, ↓reduceIte, Option.map_some]
    exact ⟨rfl, rfl, rfl⟩

/-- An edit whose write is refused and whose refresh fails leaves the rows that were cached
when it was applied, and leaves them stale, unless a refresh that began after the refusal
has stored its own. -/
theorem get?_failedEdit [Row ρ] {request : Request ρ} {rows : List ρ}
    (before during afterwards : List (Cache.Step ρ)) {traffic waiting ended : Traffic ρ}
    (reached : Traffic.start.run before = traffic)
    (cached : traffic.cache.get? request.key = some rows)
    (notifications told toldLater : List Notification) {started : Desk ρ} {edit : Edit ρ}
    (applied : Desk.submit ⟨traffic.cache, notifications⟩ request = (started, .writing edit))
    (amid : (traffic.withCache started.cache).run during = waiting)
    (fault lost : SourceFault) {refused : Desk ρ} {outcome : Outcome} {refresh : Refresh}
    (refuses : Desk.replied ⟨waiting.cache, told⟩ edit (.error fault : Except SourceFault α) =
      (refused, .settling outcome refresh))
    (spares : ∀ step ∈ afterwards, step.Spares request.key)
    (quiet : ¬(waiting.withCache refused.cache).StoresLater request.key afterwards)
    (amidLater : (waiting.withCache refused.cache).run afterwards = ended) :
    outcome = .rolledBack ∧
      (Desk.settled ⟨ended.cache, toldLater⟩ refresh (.error lost)).cache.get? request.key =
        some rows ∧
      (Desk.settled ⟨ended.cache, toldLater⟩ refresh (.error lost)).cache.isStale? request.key =
        some true := by
  obtain ⟨change, shown, mutation⟩ := Desk.submit_writing applied
  have snapshot : edit.mutation = ⟨request.key, some rows, .pending⟩ := by
    rw [mutation, Cache.update_previous]
    exact congrArg (Mutation.mk _ · _) cached
  obtain ⟨rolledBack, mine, putBack⟩ := putBack_replied _ snapshot fault refuses
  have stamped : (waiting.view request.key).Stamped := by
    rw [← amid, shown]
    refine Traffic.stamped_run_from (Traffic.stamped_withCache_update ?_ change) during
    rw [← reached]
    exact Traffic.stamped_run before request.key
  have older : ∀ other ∈ (waiting.withCache refused.cache).flightsOf request.key,
      other.base ≠ waiting.cache.nextStamp := by
    intro other flying
    have issued := stamped.issued other flying
    exact Nat.ne_of_lt (Nat.lt_trans issued.base_lt issued.ticket_lt)
  have held := PutBack.run (waiting.withCache refused.cache) putBack older afterwards spares
    quiet
  rw [amidLater] at held
  have landed := held.failed refresh lost
  have final : (Desk.settled ⟨ended.cache, toldLater⟩ refresh (.error lost)).cache.entries.get?
      request.key = refresh.fill (ended.cache.entries.get? request.key) (.error lost) := by
    simp [Desk.settled, mine]
  refine ⟨rolledBack, ?_, ?_⟩
  · rw [Cache.get?, final]
    exact landed.rows_eq
  · rw [Cache.isStale?, final]
    exact landed.stale

namespace RefusedSave

def requisition (status : RequisitionStatus) : Requisition :=
  ⟨"a", 1, status, "Ward A", .epoch⟩

/-- An update of a requisition that the source is going to refuse. -/
def edit : Edit Requisition :=
  ⟨⟨.requisitions, some [requisition .draft], .pending⟩, .update [requisition .sent],
    .saved .requisitions 1, 1⟩

/-- The requisition is cached, and a refresh of it is on its way. -/
def cached : Traffic Requisition :=
  Traffic.start.run [.set .requisitions [requisition .draft], .refresh .requisitions]

def applied : Desk Requisition × Edit.Progress Requisition :=
  Desk.submit ⟨cached.cache, []⟩
    (.save ⟨.requisitions, [requisition .sent], false, .requisitions⟩)

/-- While the update waits, a refresh stores other rows and a third one begins. -/
def waiting : Traffic Requisition :=
  (cached.withCache applied.1.cache).run
    [.refresh .requisitions, .land .requisitions 1 (.ok [requisition .finalised]),
      .refresh .requisitions]

def refused : Desk Requisition × Edit.Progress Requisition :=
  Desk.replied ⟨waiting.cache, []⟩ edit (.error .transport : Except SourceFault Nat)

/-- After the refusal both of the refreshes that are left land. -/
def landings : List (Cache.Step Requisition) :=
  [.land .requisitions 0 (.ok [requisition .finalised]), .land .requisitions 0 (.ok [])]

def ended : Traffic Requisition :=
  (waiting.withCache refused.1.cache).run landings

theorem not_storesLater :
    ¬(waiting.withCache refused.1.cache).StoresLater .requisitions landings := by
  rintro ⟨early, place, rows, rest, refresh, cut, flying, young, -⟩
  rcases early with _ | ⟨first, _ | ⟨second, early⟩⟩
  · cases cut
    cases Option.some.inj flying
    exact young (by decide)
  · cases cut
    cases Option.some.inj flying
    exact young (by decide)
  · simp [landings] at cut

theorem get?_refusedSave :
    waiting.cache.get? .requisitions = some [requisition .finalised] ∧
      (Desk.settled ⟨ended.cache, []⟩ ⟨.requisitions, some 6, 7⟩
          (.error .transport)).cache.get? .requisitions = some [requisition .draft] ∧
      (Desk.settled ⟨ended.cache, []⟩ ⟨.requisitions, some 6, 7⟩
          (.error .transport)).cache.isStale? .requisitions = some true := by
  refine ⟨rfl, (@get?_failedEdit Requisition Nat _
    (.save ⟨.requisitions, [requisition .sent], false, .requisitions⟩) [requisition .draft]
    [.set .requisitions [requisition .draft], .refresh .requisitions]
    [.refresh .requisitions, .land .requisitions 1 (.ok [requisition .finalised]),
      .refresh .requisitions]
    landings cached waiting ended rfl rfl [] [] [] applied.1 edit rfl rfl .transport .transport
    refused.1 .rolledBack ⟨.requisitions, some 6, 7⟩ rfl ?_ not_storesLater rfl).2⟩
  simp [landings, Cache.Step.Spares]

end RefusedSave

end Depot
