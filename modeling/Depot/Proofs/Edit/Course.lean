import Depot.Edit.Call
import Depot.Proofs.Cache.Changes
import Depot.Proofs.Edit.Shift

/-!
Contract: what an edit does from its start to its end.

While a call waits for the source, anything may happen to the desk: other calls write
to the cache, and users are told about them. A `World` is a source together with all
of that. The `Course` of a call is what it does itself: its questions, with the cache
as it was when each of them was put, what it tells its user, and its finding.

Owns: courses, and the one that every deletion and every update takes.
Does not own: what the cache comes to hold (`Depot.Proofs.Edit.Convergence`,
`Depot.Proofs.Edit.Rollback`).
-/

namespace Depot

variable {ρ σ α : Type}

/-- What happens while a call waits: the source replies, and others use the desk. -/
abbrev World (σ ρ : Type) : Type :=
  σ → Desk ρ → (ask : Ask ρ) → σ × Desk ρ × ask.Reply

/-- Whether the source of a world does what it is asked. -/
def World.grants (world : World σ ρ) (state : σ) (desk : Desk ρ) (ask : Ask ρ) : Bool :=
  (world state desk ask).2.2.toBool

/-- A question to the source, and the cache when it was put. -/
structure Question (ρ : Type) where
  ask : Ask ρ
  cache : Cache ρ
  /-- Whether the source did what it was asked. -/
  answered : Bool

/-- What a call does itself, from its start to its end. -/
structure Course (ρ : Type) where
  questions : List (Question ρ)
  told : List Notification
  finding : Finding ρ
  /-- The desk at the end. -/
  desk : Desk ρ

/-- What was told on the way from one desk to another. -/
def Desk.toldSince (after before : Desk ρ) : List Notification :=
  after.notifications.drop before.notifications.length

/-- The course with more at its front. -/
def Course.after (course : Course ρ) (questions : List (Question ρ))
    (told : List Notification) : Course ρ :=
  { course with questions := questions ++ course.questions, told := told ++ course.told }

/-- The course of a call that waits. -/
def Call.follow (world : World σ ρ) (state : σ) (desk : Desk ρ) (call : Call ρ) : Course ρ :=
  let (after, left, reply) := world state desk call.ask
  let resumed := call.resume left reply
  let question : Question ρ := ⟨call.ask, desk.cache, reply.toBool⟩
  match _progress : resumed.2 with
  | .finished finding => ⟨[question], resumed.1.toldSince left, finding, resumed.1⟩
  | .waiting next =>
      (follow world after resumed.1 next).after [question] (resumed.1.toldSince left)
termination_by call.rank
decreasing_by exact Call.rank_resume _ _ _ _ _progress

/-- The course of a call that is started on a desk. -/
def Desk.followCall (world : World σ ρ) (state : σ) (desk : Desk ρ)
    (started : Desk ρ × Call.Progress ρ) : Course ρ :=
  match started.2 with
  | .finished finding => ⟨[], started.1.toldSince desk, finding, started.1⟩
  | .waiting call => (call.follow world state started.1).after [] (started.1.toldSince desk)

/-- The course of an edit that is started on a desk. -/
def Desk.follow (world : World σ ρ) (state : σ) (desk : Desk ρ)
    (started : Desk ρ × Edit.Progress ρ) : Course ρ :=
  match (Desk.startEdit started).2 with
  | .finished finding => ⟨[], started.1.toldSince desk, finding, started.1⟩
  | .waiting call => (call.follow world state started.1).after [] (started.1.toldSince desk)

section

variable {world : World σ ρ} {state after : σ} {desk left resumed : Desk ρ} {call next : Call ρ}
  {reply : call.ask.Reply} {finding : Finding ρ}

theorem Call.follow_finished (replies : world state desk call.ask = (after, left, reply))
    (finished : call.resume left reply = (resumed, .finished finding)) :
    call.follow world state desk =
      ⟨[⟨call.ask, desk.cache, reply.toBool⟩], resumed.toldSince left, finding, resumed⟩ := by
  rw [follow]
  simp only [replies]
  split
  next other ends =>
    rw [replies, finished] at ends
    cases ends
    rw [finished]
  next other waits =>
    rw [replies, finished] at waits
    cases waits

theorem Call.follow_waiting (replies : world state desk call.ask = (after, left, reply))
    (waiting : call.resume left reply = (resumed, .waiting next)) :
    call.follow world state desk =
      (next.follow world after resumed).after [⟨call.ask, desk.cache, reply.toBool⟩]
        (resumed.toldSince left) := by
  rw [follow]
  simp only [replies]
  split
  next other ends =>
    rw [replies, waiting] at ends
    cases ends
  next other waits =>
    rw [replies, waiting] at waits
    cases waits
    rw [waiting]

end

/-! ### Calls that nothing comes between -/

/-- A source on its own, with nobody else at the desk. -/
def World.quiet (source : σ → (ask : Ask ρ) → σ × ask.Reply) : World σ ρ :=
  fun state desk ask => ((source state ask).1, desk, (source state ask).2)

/-- Followed or run, a call leaves the same desk and the same finding. -/
theorem Call.follow_quiet (source : σ → (ask : Ask ρ) → σ × ask.Reply) (state : σ)
    (desk : Desk ρ) (call : Call ρ) :
    (call.follow (.quiet source) state desk).desk = (call.run source state desk).1.2 ∧
      (call.follow (.quiet source) state desk).finding = (call.run source state desk).2 := by
  -- The rank counts the waits that are left, which every reply makes fewer.
  induction rank : call.rank using Nat.strongRecOn generalizing state desk call with
  | ind rank inductionHypothesis =>
      subst rank
      have replies : World.quiet source state desk call.ask =
          ((source state call.ask).1, desk, (source state call.ask).2) := rfl
      rw [Call.run]
      simp only
      split
      next finding finished =>
        rw [Call.follow_finished replies (Prod.ext rfl finished)]
        exact ⟨rfl, rfl⟩
      next next waiting =>
        rw [Call.follow_waiting replies (Prod.ext rfl waiting)]
        exact inductionHypothesis _ (call.rank_resume desk next _ waiting) _ _ next rfl

/-! ### The course of an edit -/

/-- An update changes a list that is there and puts none where there was none. -/
theorem Cache.get?_update (cache : Cache ρ) (key : ListKey) (change : List ρ → List ρ) :
    (cache.update key change).1.get? key = (cache.get? key).map change := by
  unfold Cache.get?
  cases present : cache.entries.get? key with
  | none => rw [cache.update_absent key change present, present]; rfl
  | some entry => rw [cache.update_present key change present]; simp [publish, putEntry, drawn]

/-- The desk with a change shown in its cache. -/
def Desk.showing (desk : Desk ρ) (key : ListKey) (change : List ρ → List ρ) : Desk ρ :=
  { desk with cache := (desk.cache.update key change).1 }

/-- An edit that is turned down: the source is asked nothing, the cache stays as it was,
and the user is told why. -/
structure Course.Declined (course : Course ρ) (desk : Desk ρ) (notice : Notice)
    (outcome : Outcome) : Prop where
  questions : course.questions = []
  told : course.told = [⟨.info, notice⟩]
  finding : course.finding = .outcome outcome
  cache : course.desk.cache = desk.cache

/-- An edit that reaches the source: the list is changed first, the source is asked once
for the write and once for the list, and the user is told how the write went. -/
structure Course.Carried (course : Course ρ) (desk : Desk ρ) (key : ListKey)
    (Changed : List ρ → List ρ → Prop) (ask : Ask ρ) (success : Notice) (count : Nat)
    (write settle : Question ρ) : Prop where
  questions : course.questions = [write, settle]
  sent : write.ask = ask
  /-- What is shown when the write is asked, if the list is cached. -/
  shown : Option.Rel Changed (desk.cache.get? key) (write.cache.get? key)
  refetched : settle.ask = .fetch key
  told : course.told =
    [if write.answered then ⟨.success, success⟩ else ⟨.error, .mutationFailed⟩]
  finding : course.finding =
    .outcome (if write.answered then .committed count else .rolledBack)

namespace Desk

variable (world : World σ ρ) (state : σ) (desk : Desk ρ)

theorem replied_ok (edit : Edit ρ) (pending : edit.mutation.state = .pending) (answer : α) :
    desk.replied edit (.ok answer : Except SourceFault α) =
      ({ desk.tell .success edit.success with
          cache := (desk.cache.beginInvalidate edit.mutation.key).1 },
        .settling (.committed edit.count)
          (desk.cache.beginInvalidate edit.mutation.key).2) := by
  simp [replied, Mutation.commit, Mutation.guarded, pending, MutationStep.from, tell]

theorem replied_error (edit : Edit ρ) (pending : edit.mutation.state = .pending)
    (fault : SourceFault) :
    desk.replied edit (.error fault : Except SourceFault α) =
      ({ desk.tell .error .mutationFailed with
          cache := ((edit.mutation.restored desk.cache).beginInvalidate edit.mutation.key).1 },
        .settling .rolledBack
          ((edit.mutation.restored desk.cache).beginInvalidate edit.mutation.key).2) := by
  simp [replied, Mutation.rollback, Mutation.guarded, pending, MutationStep.from, tell]

/-- The source's reply to a write decides what the user is told and the outcome; the
refresh that ends the edit is one of its list. -/
theorem replied_eq (edit : Edit ρ) (pending : edit.mutation.state = .pending)
    (reply : Except SourceFault α) :
    ∃ cache refresh, refresh.key = edit.mutation.key ∧
      desk.replied edit reply =
        (⟨cache, desk.notifications ++
            [if reply.toBool then ⟨.success, edit.success⟩ else ⟨.error, .mutationFailed⟩]⟩,
          .settling (if reply.toBool then .committed edit.count else .rolledBack) refresh) := by
  cases reply with
  | ok answer => exact ⟨_, _, rfl, desk.replied_ok edit pending answer⟩
  | error fault => exact ⟨_, _, rfl, desk.replied_error edit pending fault⟩

/-- The refresh that ends an edit asks for the list and tells nothing. -/
theorem follow_settling (finding : Finding ρ) (refresh : Refresh) :
    ∃ answered last,
      (Call.settling finding refresh).follow world state desk =
        ⟨[⟨.fetch refresh.key, desk.cache, answered⟩], [], finding, last⟩ := by
  rcases replies : world state desk (Call.settling finding refresh).ask with
    ⟨after, left, reply⟩
  refine ⟨reply.toBool, left.settled refresh reply, ?_⟩
  have silent : (left.settled refresh reply).toldSince left = [] := List.drop_length
  rw [Call.follow_finished replies rfl]
  exact congrArg (Course.mk _ · finding _) silent

/-- The write of an edit is followed by one message and by the refresh of the list. -/
theorem follow_writing (edit : Edit ρ) (pending : edit.mutation.state = .pending) :
    ∃ settle last,
      settle.ask = .fetch edit.mutation.key ∧
        (Call.writing edit).follow world state desk =
          ⟨[⟨edit.ask, desk.cache, world.grants state desk edit.ask⟩, settle],
            [if world.grants state desk edit.ask then ⟨.success, edit.success⟩
              else ⟨.error, .mutationFailed⟩],
            .outcome (if world.grants state desk edit.ask then .committed edit.count
              else .rolledBack), last⟩ := by
  rcases replies : world state desk (Call.writing edit).ask with ⟨after, left, reply⟩
  have granted : world.grants state desk edit.ask = reply.toBool :=
    congrArg (fun replied => replied.2.2.toBool) replies
  obtain ⟨cache, refresh, mine, replied⟩ := left.replied_eq edit pending reply
  obtain ⟨refetched, last, settles⟩ := follow_settling world after
    ⟨cache, left.notifications ++
      [if reply.toBool then ⟨.success, edit.success⟩ else ⟨.error, .mutationFailed⟩]⟩
    (.outcome (if reply.toBool then .committed edit.count else .rolledBack)) refresh
  refine ⟨⟨.fetch refresh.key, cache, refetched⟩, last, congrArg Ask.fetch mine, ?_⟩
  rw [Call.follow_waiting replies (congrArg startEdit replied), settles, granted]
  simp only [Course.after, toldSince, List.drop_left, List.append_nil]
  rfl

/-- An edit that is shown is sent as it was shown, and the reply to that decides what the user
is told and the outcome. -/
theorem follow_begin_eq (key : ListKey) (change : List ρ → List ρ) (ask : Ask ρ)
    (success : Notice) (count : Nat) :
    ∃ settle last,
      settle.ask = .fetch key ∧
        desk.follow world state (desk.begin key change ask success count) =
          ⟨[⟨ask, (desk.showing key change).cache,
              world.grants state (desk.showing key change) ask⟩, settle],
            [if world.grants state (desk.showing key change) ask then ⟨.success, success⟩
              else ⟨.error, .mutationFailed⟩],
            .outcome (if world.grants state (desk.showing key change) ask then .committed count
              else .rolledBack), last⟩ := by
  rw [begin_eq]
  obtain ⟨settle, last, refetched, course⟩ := follow_writing world state (desk.showing key change)
    ⟨⟨key, (desk.cache.update key change).2, .pending⟩, ask, success, count⟩ rfl
  refine ⟨settle, last, refetched, ?_⟩
  have silent : (desk.showing key change).toldSince desk = [] := List.drop_length
  refine (congrArg (Course.after · [] ((desk.showing key change).toldSince desk)) course).trans ?_
  rw [silent]
  rfl

theorem follow_begin {Changed : List ρ → List ρ → Prop} {change : List ρ → List ρ}
    (settled : ∀ {rows kept : List ρ}, kept = change rows ↔ Changed rows kept) (key : ListKey)
    (ask : Ask ρ) (success : Notice) (count : Nat) :
    ∃ write settle, (desk.follow world state
      (desk.begin key change ask success count)).Carried desk key Changed ask success count
        write settle := by
  obtain ⟨settle, last, refetched, course⟩ :=
    follow_begin_eq world state desk key change ask success count
  refine ⟨⟨ask, (desk.showing key change).cache, world.grants state (desk.showing key change) ask⟩,
    settle, ?_⟩
  rw [course]
  have shown := (Rows.rel_iff_eq_map settled).mpr (desk.cache.get?_update key change)
  exact ⟨rfl, rfl, shown, refetched, rfl, rfl⟩

/-- An edit that is turned down with a message ends there. -/
theorem follow_declined (notice : Notice) (outcome : Outcome) :
    (desk.follow world state (desk.tell .info notice, .finished outcome)).Declined desk notice
      outcome := by
  refine ⟨rfl, ?_, rfl, rfl⟩
  simp only [follow, startEdit, Call.Progress.ofEdit, toldSince, tell, List.drop_left]

end Desk

/-- The rows that a deletion is about. -/
def Removal.rows [Row ρ] (request : Removal ρ) : List ρ :=
  request.view.selectedRows request.selection

/-- How a deletion stands before it is started. -/
inductive Removal.Standing [Row ρ] (request : Removal ρ) : Prop
  | disabled (disabled : request.disabled = true)
  | nothing (enabled : request.disabled = false) (none : request.rows = [])
  | barred (enabled : request.disabled = false)
      (barred : ∃ row ∈ request.rows, ¬request.eligibility.allows row)
  | admitted (enabled : request.disabled = false) (some : request.rows ≠ [])
      (allowed : ∀ row ∈ request.rows, request.eligibility.allows row)

theorem Removal.standing [Row ρ] (request : Removal ρ) : request.Standing := by
  cases locked : request.disabled with
  | true => exact .disabled locked
  | false =>
      by_cases none : request.rows = []
      · exact .nothing locked none
      · by_cases barred : ∃ row ∈ request.rows, ¬request.eligibility.allows row
        · exact .barred locked barred
        · exact .admitted locked none (by simpa using barred)

/-- The course of a deletion: it reaches the source when it is not disabled, rows are
selected and every one of them may be deleted, and the first of these that fails is what the
user is told. Meanwhile the list is shown without the selected ids. -/
structure Course.Deletes [Row ρ] (course : Course ρ) (desk : Desk ρ) (request : Removal ρ) :
    Prop where
  disabled : request.disabled = true → course.Declined desk .disabled (.skipped .disabled)
  nothing : request.disabled = false → request.rows = [] →
    course.Declined desk .selectRowsFirst (.skipped .selectRowsFirst)
  barred : request.disabled = false → (∃ row ∈ request.rows, ¬request.eligibility.allows row) →
    course.Declined desk (.cannotDelete request.subject request.eligibility.reason)
      (.rejected (.cannotDelete request.subject request.eligibility.reason))
  carried : request.disabled = false → request.rows ≠ [] →
    (∀ row ∈ request.rows, request.eligibility.allows row) →
    ∃ write settle, course.Carried desk request.key (Rows.LeavesOut (request.rows.map Row.id))
      (.remove (request.rows.map Row.target))
      (.deleted request.subject request.rows.length) request.rows.length write settle

/-- The course of an update: it reaches the source when it is not disabled and there are rows
to store. Meanwhile the last of them is shown at each place of their ids. -/
structure Course.Saves [Row ρ] (course : Course ρ) (desk : Desk ρ) (request : Update ρ) :
    Prop where
  disabled : request.disabled = true → course.Declined desk .disabled (.skipped .disabled)
  nothing : request.disabled = false → request.rows = [] →
    course.Declined desk .selectRowsFirst (.skipped .selectRowsFirst)
  carried : request.disabled = false → request.rows ≠ [] →
    ∃ write settle, course.Carried desk request.key
      (List.Forall₂ (Rows.Shows request.rows))
      (.update request.rows)
      (.saved request.subject request.rows.length) request.rows.length write settle

namespace Desk

variable [Row ρ] (world : World σ ρ) (state : σ) (desk : Desk ρ)

section

variable {desk : Desk ρ} {request : Removal ρ}

theorem remove_disabled (disabled : request.disabled = true) :
    desk.remove request = desk.skip .disabled := by
  rw [remove, if_pos disabled]

theorem remove_nothing (enabled : request.disabled = false) (none : request.rows = []) :
    desk.remove request = desk.skip .selectRowsFirst := by
  have empty : (request.view.selectedRows request.selection).isEmpty = true :=
    List.isEmpty_iff.mpr none
  simp only [remove, enabled, empty, Bool.false_eq_true, ↓reduceIte]

/-- A deletion of rows that may not all be deleted is turned down. -/
theorem remove_barred (enabled : request.disabled = false)
    (barred : ∃ row ∈ request.rows, ¬request.eligibility.allows row) :
    desk.remove request =
      (desk.tell .info (.cannotDelete request.subject request.eligibility.reason),
        .finished (.rejected (.cannotDelete request.subject request.eligibility.reason))) := by
  obtain ⟨row, member, refused⟩ := barred
  have some : ¬(request.view.selectedRows request.selection).isEmpty = true := by
    intro empty
    exact List.ne_nil_of_mem member (List.isEmpty_iff.mp empty)
  have barred : ¬(request.view.selectedRows request.selection).all
      request.eligibility.allows = true :=
    fun all => refused (List.all_eq_true.mp all row member)
  simp only [remove, enabled, some, barred, Bool.false_eq_true, ↓reduceIte]

/-- A deletion of rows that may be deleted is shown and sent. -/
theorem remove_admitted (enabled : request.disabled = false) (some : request.rows ≠ [])
    (allowed : ∀ row ∈ request.rows, request.eligibility.allows row) :
    desk.remove request =
      desk.begin request.key (Rows.without (request.rows.map Row.id))
        (.remove (request.rows.map Row.target))
        (.deleted request.subject request.rows.length) request.rows.length := by
  have some : ¬(request.view.selectedRows request.selection).isEmpty = true :=
    fun empty => some (List.isEmpty_iff.mp empty)
  have allowed : (request.view.selectedRows request.selection).all
      request.eligibility.allows = true := List.all_eq_true.mpr allowed
  simp only [remove, enabled, some, allowed, Bool.false_eq_true, ↓reduceIte]
  rfl

end

theorem follow_remove (request : Removal ρ) :
    (desk.follow world state (desk.remove request)).Deletes desk request where
  disabled := by
    intro disabled
    rw [remove_disabled disabled]
    exact follow_declined world state desk _ _
  nothing := by
    intro enabled none
    rw [remove_nothing enabled none]
    exact follow_declined world state desk _ _
  barred := by
    intro enabled barred
    rw [remove_barred enabled barred]
    exact follow_declined world state desk _ _
  carried := by
    intro enabled some allowed
    rw [remove_admitted enabled some allowed]
    exact follow_begin world state desk Rows.eq_without_iff ..

theorem follow_update (request : Update ρ) :
    (desk.follow world state (desk.update request)).Saves desk request where
  disabled := by
    intro disabled
    rw [update, if_pos disabled]
    exact follow_declined world state desk _ _
  nothing := by
    intro enabled none
    simp only [update, enabled, none, List.isEmpty_nil, Bool.false_eq_true, ↓reduceIte]
    exact follow_declined world state desk _ _
  carried := by
    intro enabled some
    have some : ¬request.rows.isEmpty = true := fun empty => some (List.isEmpty_iff.mp empty)
    simp only [update, enabled, some, Bool.false_eq_true, ↓reduceIte]
    exact follow_begin world state desk Rows.eq_withReplacements_iff ..

/-- A deletion that reaches the source is of rows that may be deleted, and is shown first. -/
theorem remove_writing {request : Removal ρ} {shown : Desk ρ} {edit : Edit ρ}
    (writing : desk.remove request = (shown, .writing edit)) :
    request.disabled = false ∧ request.rows ≠ [] ∧
      (∀ row ∈ request.rows, request.eligibility.allows row = true) ∧
      edit.ask = .remove (request.rows.map Row.target) ∧
      shown.cache.get? request.key =
        (desk.cache.get? request.key).map (Rows.without (request.rows.map Row.id)) := by
  unfold remove at writing
  split at writing
  next => cases writing
  next enabled =>
    simp only at writing
    split at writing
    next => cases writing
    next some =>
      split at writing
      next allowed =>
        rw [begin_eq] at writing
        cases writing
        refine ⟨by simpa using enabled, ?_, List.all_eq_true.mp allowed, rfl,
          desk.cache.get?_update ..⟩
        exact fun none => some (List.isEmpty_iff.mpr none)
      next => cases writing

/-- An update that reaches the source has rows to store, and is shown first. -/
theorem update_writing {request : Update ρ} {shown : Desk ρ} {edit : Edit ρ}
    (writing : desk.update request = (shown, .writing edit)) :
    request.disabled = false ∧ request.rows ≠ [] ∧ edit.ask = .update request.rows ∧
      shown.cache.get? request.key =
        (desk.cache.get? request.key).map (Rows.withReplacements request.rows) := by
  unfold update at writing
  split at writing
  next => cases writing
  next enabled =>
    split at writing
    next => cases writing
    next some =>
      rw [begin_eq] at writing
      cases writing
      refine ⟨by simpa using enabled, ?_, rfl, desk.cache.get?_update ..⟩
      exact fun none => some (List.isEmpty_iff.mpr none)

/-- Whatever the source replies and whatever others do meanwhile, deletions and updates take
one course, which is settled by what was asked for and by the reply to the write. -/
theorem follow_edit :
    (∀ request : Removal ρ, (desk.follow world state (desk.remove request)).Deletes desk request) ∧
      ∀ request : Update ρ, (desk.follow world state (desk.update request)).Saves desk request :=
  ⟨desk.follow_remove world state, desk.follow_update world state⟩

end Desk

end Depot
