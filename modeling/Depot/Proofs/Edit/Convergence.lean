import Depot.Proofs.Edit.Outlook
import Depot.Proofs.Edit.Shift

/-!
Contract: overlapping edits of one list come to show what the source has.

Let only edits write to a list, let only their writes change the source, and let no
fetch fail. When the last of the writes has been replied to, a refresh begins that
sees the source as it will stay, and it covers the list from then on. While a write
waits nothing needs to hold, because its reply is still to come.

Owns: what every step of such a shift keeps, and what holds once every call has ended.
Does not own: the steps (`Depot.Proofs.Edit.Shift`), covered lists
(`Depot.Proofs.Edit.Outlook`).
-/

namespace Depot

variable {ρ : Type}

/-- The finding of a call that waits for the refresh at its end. -/
def Call.finding? : Call ρ → Option (Finding ρ)
  | .settling finding _ => some finding
  | .fetching _ | .refreshing _ | .writing _ => none

/-- The refresh of a list that a call waits for, and the rows that it brings. -/
def Waiting.arrival? (key : ListKey) (waiting : Waiting ρ) : Option (Refresh × List ρ) :=
  (waiting.call.refresh?.filter fun refresh => refresh.key = key).map
    fun refresh => (refresh, waiting.seen key)

/-- A call brings rows for the key of the refresh that it waits for. -/
theorem Waiting.arrival?_own {key : ListKey} {waiting : Waiting ρ} {refresh : Refresh}
    (waits : waiting.call.refresh? = some refresh) (mine : refresh.key = key) :
    waiting.arrival? key = some (refresh, waiting.seen key) := by
  simp [arrival?, waits, mine]

theorem Waiting.arrival?_none {key : ListKey} {waiting : Waiting ρ}
    (waits : waiting.call.refresh? = none) : waiting.arrival? key = none := by
  simp [arrival?, waits]

theorem Waiting.arrival?_other {key : ListKey} {waiting : Waiting ρ} {refresh : Refresh}
    (waits : waiting.call.refresh? = some refresh) (differs : refresh.key ≠ key) :
    waiting.arrival? key = none := by
  simp [arrival?, waits, differs]

/-- A call that waits for rows ends when they come, with no other finding than the one
that it had, and lands its refresh if it is one. -/
theorem Call.resume_answer {call : Call ρ} (fetches : ¬call.IsWriting) (desk : Desk ρ)
    (rows : ListKey → List ρ) (count : Nat) :
    ∃ cache finding,
      call.resume desk (.ok (call.ask.answer rows count)) =
          ({ desk with cache }, .finished finding) ∧
        (finding.IsEnding → call.finding? = some finding) ∧
        (call.refresh? = none ∧ cache = desk.cache ∨
          ∃ refresh, call.refresh? = some refresh ∧
            cache = (desk.cache.land refresh (.ok (rows refresh.key))).1) := by
  cases call with
  | fetching key => exact ⟨_, _, rfl, False.elim, .inl ⟨rfl, rfl⟩⟩
  | writing edit => exact absurd trivial fetches
  | refreshing refresh => exact ⟨_, _, rfl, False.elim, .inr ⟨refresh, rfl, rfl⟩⟩
  | settling finding refresh => exact ⟨_, _, rfl, fun _ => rfl, .inr ⟨refresh, rfl, rfl⟩⟩

namespace Shift

/-- What is seen of a shift under one key. -/
def outlook (shift : Shift ρ) (key : ListKey) : Outlook ρ where
  entry := shift.desk.cache.entries.get? key
  clock := shift.desk.cache.nextStamp
  arrivals := shift.waiting.filterMap (Waiting.arrival? key)
  rows := shift.source key

theorem outlook_proceed_waiting (shift : Shift ρ) (key : ListKey) (desk : Desk ρ)
    (call : Call ρ) :
    (shift.proceed (desk, .waiting call)).outlook key =
      ⟨desk.cache.entries.get? key, desk.cache.nextStamp,
        (shift.outlook key).arrivals ++ (Waiting.arrival? key ⟨call, shift.source⟩).toList,
        shift.source key⟩ := by
  cases arrival : Waiting.arrival? key ⟨call, shift.source⟩ with
  | none => simp [outlook, proceed, arrival]
  | some pair => simp [outlook, proceed, arrival]

/-- The outlook of a cache, with the refreshes that are on their way in a shift. -/
def outlookOf (shift : Shift ρ) (cache : Cache ρ) (key : ListKey) : Outlook ρ :=
  ⟨cache.entries.get? key, cache.nextStamp, (shift.outlook key).arrivals, shift.source key⟩

theorem outlook_proceed_finished (shift : Shift ρ) (key : ListKey) (desk : Desk ρ)
    (finding : Finding ρ) :
    (shift.proceed (desk, .finished finding)).outlook key = shift.outlookOf desk.cache key := rfl

/-- The outlook when a call has begun to invalidate the list and waits. -/
theorem outlook_invalidated (shift : Shift ρ) (key : ListKey) (cache : Cache ρ)
    (notifications : List Notification) {call : Call ρ}
    (waits : call.refresh? = some (cache.beginInvalidate key).2) :
    (shift.proceed (⟨(cache.beginInvalidate key).1, notifications⟩, .waiting call)).outlook key =
      (shift.outlookOf cache key).invalidate key := by
  have own : Waiting.arrival? key ⟨call, shift.source⟩ = some _ := Waiting.arrival?_own waits rfl
  rw [outlook_proceed_waiting, own]
  simp [outlookOf, Outlook.invalidate, Outlook.begin, Entry.marked, Cache.beginInvalidate,
    Cache.begin, Cache.drawn, Cache.writtenStamp?]

def Writing (shift : Shift ρ) : Prop :=
  ∃ waiting ∈ shift.waiting, waiting.call.IsWriting

/-- Whether a mutation was committed or rolled back. -/
def Ending (shift : Shift ρ) : Prop :=
  (∃ finding ∈ shift.findings, finding.IsEnding) ∨
    ∃ waiting ∈ shift.waiting, ∃ finding, waiting.call.finding? = some finding ∧ finding.IsEnding

/-- Whether a step leaves the list under a key and the source to the edits of the list,
and fails no fetch. -/
def Step.IsOrderly (key : ListKey) : Shift.Step ρ → Prop
  | .ensure _ | .refresh _ | .invalidate _ | .serve _ _ | .answer _ _ | .refuse _ _ => True
  | .remove request => request.key = key
  | .save request => request.key = key
  | .set other _ | .change other _ | .drop other => other ≠ key
  | .clear | .amend _ | .lose _ _ => False

/-- What every step of an orderly shift keeps. Before a mutation has ended the list may
hold anything, and while a write waits it may differ from the source. -/
structure Converging (key : ListKey) (shift : Shift ρ) : Prop where
  pending : ∀ waiting ∈ shift.waiting, ∀ edit, waiting.call = .writing edit →
    edit.mutation.key = key ∧ edit.mutation.state = .pending
  sound : (shift.outlook key).Sound
  covered : shift.Ending → shift.Writing ∨ ∃ since, (shift.outlook key).Covered since

/-- The call at a place stands between others. -/
theorem exists_split {shift : Shift ρ} {place : Nat} {waiting : Waiting ρ}
    (found : shift.waiting[place]? = some waiting) :
    ∃ first last, shift.waiting = first ++ waiting :: last ∧
      (shift.without place).waiting = first ++ last := by
  obtain ⟨bound, rfl⟩ := List.getElem?_eq_some_iff.mp found
  refine ⟨shift.waiting.take place, shift.waiting.drop (place + 1), ?_, ?_⟩
  · rw [← List.drop_eq_getElem_cons bound, List.take_append_drop]
  · exact List.eraseIdx_eq_take_drop_succ _ _

/-- What the call at a place brings stands between what others bring. -/
theorem exists_split_arrivals {shift : Shift ρ} {place : Nat} {waiting : Waiting ρ}
    (found : shift.waiting[place]? = some waiting) (key : ListKey) :
    ∃ first last,
      (shift.outlook key).arrivals = first ++ (waiting.arrival? key).toList ++ last ∧
        ((shift.without place).outlook key).arrivals = first ++ last := by
  obtain ⟨first, last, split, left⟩ := exists_split found
  refine ⟨first.filterMap (Waiting.arrival? key), last.filterMap (Waiting.arrival? key), ?_, ?_⟩
  · cases arrival : waiting.arrival? key with
    | none => simp [outlook, split, arrival]
    | some pair => simp [outlook, split, arrival]
  · simp [outlook, left]

namespace Converging

variable {key : ListKey} {shift after : Shift ρ}

/-- While nothing new is written and no mutation ends, a turn keeps a shift
converging. -/
theorem turned (converging : shift.Converging key)
    (old : ∀ waiting ∈ after.waiting, waiting.call.IsWriting → waiting ∈ shift.waiting)
    (writing : ∀ waiting ∈ shift.waiting, waiting.call.IsWriting → waiting ∈ after.waiting)
    (ending : after.Ending → shift.Ending)
    (turn : Outlook.Turn key (shift.outlook key) (after.outlook key)) :
    after.Converging key where
  pending := by
    intro waiting member edit same
    have isWriting : waiting.call.IsWriting := by
      rw [same]
      trivial
    exact converging.pending waiting (old waiting member isWriting) edit same
  sound := Outlook.Sound.turn turn converging.sound
  covered := by
    intro ended
    rcases converging.covered (ending ended) with ⟨waiting, member, isWriting⟩ | ⟨since, covered⟩
    · exact .inl ⟨waiting, writing waiting member isWriting, isWriting⟩
    · exact .inr ⟨since, Outlook.Covered.turn turn converging.sound covered⟩

/-- What happens under other keys keeps a shift converging. -/
theorem withCache (converging : shift.Converging key) {cache : Cache ρ}
    (entry : cache.entries.get? key = shift.desk.cache.entries.get? key)
    (clock : shift.desk.cache.nextStamp ≤ cache.nextStamp) :
    (shift.withCache cache).Converging key := by
  refine converging.turned (fun _ member _ => member) (fun _ member _ => member) id ?_
  have same : (shift.withCache cache).outlook key =
      { shift.outlook key with clock := cache.nextStamp } := by
    simp [outlook, Shift.withCache, entry]
  rw [same]
  exact .pass _ _ clock

/-! ### Calls that are entered -/

/-- A call that is entered and waits for a refresh writes nothing and ends nothing. -/
theorem entered (converging : shift.Converging key) {desk : Desk ρ} {refresh : Refresh}
    (turn : Outlook.Turn key (shift.outlook key)
      ((shift.proceed (desk, .waiting (.refreshing refresh))).outlook key)) :
    (shift.proceed (desk, .waiting (.refreshing refresh))).Converging key := by
  refine converging.turned ?_ ?_ ?_ turn
  · intro waiting member isWriting
    rcases List.mem_append.mp member with before | new
    · exact before
    · rw [List.mem_singleton.mp new] at isWriting
      exact isWriting.elim
  · intro waiting member _
    exact List.mem_append_left _ member
  · rintro (ended | ⟨waiting, member, finding, same, isEnding⟩)
    · exact .inl ended
    · rcases List.mem_append.mp member with before | new
      · exact .inr ⟨waiting, before, finding, same, isEnding⟩
      · rw [List.mem_singleton.mp new] at same
        cases same

theorem refresh (converging : shift.Converging key) (other : ListKey) :
    (shift.proceed (shift.desk.startRefresh other)).Converging key := by
  rw [Desk.startRefresh_eq]
  refine converging.entered ?_
  rw [outlook_proceed_waiting]
  by_cases same : other = key
  · subst same
    have own : Waiting.arrival? other
        ⟨.refreshing (shift.desk.cache.begin other).2, shift.source⟩ = some _ :=
      Waiting.arrival?_own rfl rfl
    rw [own]
    exact .begin (shift.outlook other)
  · rw [Waiting.arrival?_other rfl same, Option.toList_none, List.append_nil]
    exact .pass (shift.outlook key) _ (Nat.le_succ _)

theorem invalidate (converging : shift.Converging key) (other : ListKey) :
    (shift.proceed (shift.desk.startInvalidate other)).Converging key := by
  rw [Desk.startInvalidate_eq]
  refine converging.entered ?_
  by_cases same : other = key
  · subst same
    rw [outlook_invalidated shift other shift.desk.cache _ rfl]
    exact .invalidate (shift.outlook other)
  · rw [outlook_proceed_waiting, Waiting.arrival?_other rfl same, Option.toList_none,
      List.append_nil]
    have differs : ¬key = other := fun equal => same equal.symm
    have turn : Outlook.Turn key (shift.outlook key) _ := .pass _ _ (Nat.le_succ _)
    simpa [Cache.beginInvalidate, differs, outlook] using turn

/-- A call that ends at once and ends no mutation changes nothing. -/
theorem finished (converging : shift.Converging key) {desk : Desk ρ} {finding : Finding ρ}
    (same : desk.cache = shift.desk.cache) (harmless : ¬finding.IsEnding) :
    (shift.proceed (desk, .finished finding)).Converging key := by
  refine converging.turned (fun _ member _ => member) (fun _ member _ => member) ?_ ?_
  · rintro (⟨known, member, isEnding⟩ | waiting)
    · rcases List.mem_append.mp member with before | new
      · exact .inl ⟨known, before, isEnding⟩
      · rw [List.mem_singleton.mp new] at isEnding
        exact absurd isEnding harmless
    · exact .inr waiting
  · have unchanged : (shift.proceed (desk, .finished finding)).outlook key =
        { shift.outlook key with clock := shift.desk.cache.nextStamp } := by
      simp [outlook, proceed, same]
    exact unchanged ▸ .pass _ _ (Nat.le_refl _)

theorem ensure (converging : shift.Converging key) (other : ListKey) :
    (shift.proceed (shift.desk.startEnsure other)).Converging key := by
  cases fresh : shift.desk.cache.fresh? other with
  | some rows =>
      simp only [Desk.startEnsure, fresh]
      exact converging.finished rfl id
  | none =>
      simp only [Desk.startEnsure, fresh]
      exact converging.refresh other

/-- An edit of the list that is entered writes and waits, or changes nothing. -/
theorem edit (converging : shift.Converging key) {opened : Desk ρ × Edit.Progress ρ}
    (opening : shift.desk.Opening key opened) :
    (shift.proceed (Desk.startEdit opened)).Converging key := by
  cases opening with
  | declined severity notice outcome harmless => exact converging.finished rfl harmless
  | shown change ask success count =>
      rw [Desk.begin_eq]
      have noArrival : ∀ edit : Edit ρ,
          Waiting.arrival? key ⟨.writing edit, shift.source⟩ = none := fun _ => rfl
      refine ⟨?_, ?_, ?_⟩
      · intro waiting member edit same
        rcases List.mem_append.mp member with before | new
        · exact converging.pending waiting before edit same
        · rw [List.mem_singleton.mp new] at same
          cases same
          exact ⟨rfl, rfl⟩
      · simp only [Desk.startEdit, Call.Progress.ofEdit, outlook_proceed_waiting, noArrival,
          Option.toList_none, List.append_nil]
        cases present : shift.desk.cache.entries.get? key with
        | none =>
            rw [shift.desk.cache.update_absent key change present]
            exact converging.sound
        | some entry =>
            have fetchStampLt := converging.sound.fetchStamp_lt
            simp only [outlook, present, Entry.fetchStamp_some] at fetchStampLt
            have wrote := converging.sound.wrote
              { entry with rows := change entry.rows, written := shift.desk.cache.nextStamp } rfl
              (Nat.le_of_lt fetchStampLt)
            rw [shift.desk.cache.update_present key change present]
            simpa [Outlook.wrote, outlook, Cache.publish, Cache.putEntry, Cache.drawn] using wrote
      · intro _
        exact .inl ⟨_, List.mem_append_right _ List.mem_cons_self, trivial⟩

/-! ### Calls that are resumed -/

/-- A write that takes effect at the source while it waits. -/
theorem serve (converging : shift.Converging key) {waiting : Waiting ρ}
    (member : waiting ∈ shift.waiting) (isWriting : waiting.call.IsWriting)
    (source : ListKey → List ρ) : ({ shift with source } : Shift ρ).Converging key where
  pending := converging.pending
  sound := ⟨converging.sound.stamp_lt, converging.sound.fetchStamp_lt, converging.sound.fits⟩
  covered := fun _ => .inl ⟨waiting, member, isWriting⟩

/-- The source answers a fetch. -/
theorem answered (converging : shift.Converging key) {place : Nat} {waiting : Waiting ρ}
    (found : shift.waiting[place]? = some waiting) (fetches : ¬waiting.call.IsWriting)
    (count : Nat) :
    ((shift.without place).proceed (waiting.call.resume shift.desk
      (.ok (waiting.call.ask.answer waiting.seen count)))).Converging key := by
  obtain ⟨first, last, split, left⟩ := exists_split found
  obtain ⟨cache, finding, resumed, known, caches⟩ :=
    Call.resume_answer fetches shift.desk waiting.seen count
  rw [resumed]
  have others : ∀ other ∈ first ++ last, other ∈ shift.waiting := by
    intro other member
    exact (Outlook.mem_split_iff split).mpr (.inr member)
  refine converging.turned ?_ ?_ ?_ ?_
  · intro other member _
    exact others other (left ▸ member)
  · intro other member isWriting
    rcases (Outlook.mem_split_iff split).mp member with rfl | stays
    · exact absurd isWriting fetches
    · exact left ▸ stays
  · rintro (⟨other, member, isEnding⟩ | ⟨other, member, ending⟩)
    · rcases List.mem_append.mp member with before | new
      · exact .inl ⟨other, before, isEnding⟩
      · rw [List.mem_singleton.mp new] at isEnding
        exact .inr ⟨waiting, List.mem_of_getElem? found, finding, known isEnding, isEnding⟩
    · exact .inr ⟨other, others other (left ▸ member), ending⟩
  · obtain ⟨early, late, arrivals, leftArrivals⟩ := exists_split_arrivals found key
    rw [outlook_proceed_finished, outlookOf, leftArrivals]
    rcases caches with ⟨waits, rfl⟩ | ⟨refresh, waits, rfl⟩
    · rw [Waiting.arrival?_none waits, Option.toList_none, List.append_nil] at arrivals
      rw [← arrivals]
      exact .pass (shift.outlook key) _ (Nat.le_refl _)
    · rw [Cache.entries_land, Cache.nextStamp_land]
      by_cases mine : refresh.key = key
      · rw [Waiting.arrival?_own waits mine, Option.toList_some, List.append_assoc,
          List.singleton_append] at arrivals
        rw [if_pos mine.symm, mine]
        exact .land (shift.outlook key) _ _ _ arrivals
      · rw [Waiting.arrival?_other waits mine, Option.toList_none, List.append_nil] at arrivals
        rw [if_neg fun same => mine same.symm, ← arrivals]
        exact .pass (shift.outlook key) _ (Nat.le_refl _)

/-- The source replies to a write, and a refresh begins that covers the list. -/
theorem settled (converging : shift.Converging key) {place : Nat} {waiting : Waiting ρ}
    (found : shift.waiting[place]? = some waiting) (isWriting : waiting.call.IsWriting)
    (reply : waiting.call.ask.Reply) :
    ((shift.without place).proceed (waiting.call.resume shift.desk reply)).Converging key := by
  obtain ⟨first, last, split, left⟩ := exists_split found
  obtain ⟨call, seen⟩ := waiting
  cases call with
  | fetching | refreshing | settling => exact isWriting.elim
  | writing edit =>
      obtain ⟨mine, pending⟩ := converging.pending _ (List.mem_of_getElem? found) edit rfl
      obtain ⟨notifications, outcome, base, isEnding, bases, replied⟩ :=
        shift.desk.replied_pending edit pending reply
      rw [mine] at bases replied
      have resumed : Call.resume shift.desk (.writing edit) reply =
          (⟨(base.beginInvalidate key).1, notifications⟩,
            .waiting (.settling (.outcome outcome) (base.beginInvalidate key).2)) := by
        simp only [Call.resume, replied]
        rfl
      rw [resumed]
      have arrivals : ((shift.without place).outlook key).arrivals =
          (shift.outlook key).arrivals := by
        obtain ⟨early, late, arrivals, leftArrivals⟩ := exists_split_arrivals found key
        rw [arrivals, leftArrivals]
        exact (congrArg (· ++ late) (List.append_nil early)).symm
      -- Old rows that are put back are one more write before the invalidation.
      have sound : ((shift.without place).outlookOf base key).Sound := by
        rw [outlookOf, arrivals]
        rcases bases with rfl | ⟨rows, rfl⟩
        · exact converging.sound
        · rw [Cache.entries_set, if_pos rfl]
          exact converging.sound.wrote ⟨rows, shift.desk.cache.nextStamp, 0, false⟩ rfl
            (Nat.zero_le _)
      refine ⟨?_, ?_, ?_⟩
      · intro other member otherEdit same
        rcases List.mem_append.mp member with before | new
        · rw [left] at before
          exact converging.pending other ((Outlook.mem_split_iff split).mpr (.inr before))
            otherEdit same
        · rw [List.mem_singleton.mp new] at same
          cases same
      · rw [outlook_invalidated _ key base notifications rfl]
        exact sound.invalidate key
      · intro _
        rw [outlook_invalidated _ key base notifications rfl]
        exact .inr ⟨_, sound.covered_invalidate key⟩

/-! ### Whole runs -/

theorem step [Row ρ] (converging : shift.Converging key) {step : Shift.Step ρ}
    (orderly : step.IsOrderly key) : (shift.step step).Converging key := by
  cases step with
  | ensure other => exact converging.ensure other
  | refresh other => exact converging.refresh other
  | invalidate other => exact converging.invalidate other
  | remove request =>
      have mine : request.key = key := orderly
      exact converging.edit (mine ▸ shift.desk.opening_remove request)
  | save request =>
      have mine : request.key = key := orderly
      exact converging.edit (mine ▸ shift.desk.opening_update request)
  | set other rows =>
      have differs : other ≠ key := orderly
      refine converging.withCache ?_ (Nat.le_succ _)
      rw [Cache.entries_set, if_neg differs.symm]
  | change other change =>
      have differs : other ≠ key := orderly
      exact converging.withCache (Cache.entries_update_other _ _ _ change differs.symm)
        (Cache.nextStamp_le_update _ _ change)
  | drop other =>
      have differs : other ≠ key := orderly
      refine converging.withCache ?_ (Nat.le_of_eq (Cache.nextStamp_remove _ _).symm)
      rw [Cache.entries_remove, if_neg differs.symm]
  | clear | amend | lose => exact orderly.elim
  | serve place source =>
      cases found : shift.waiting[place]? with
      | none =>
          simp only [Shift.step, found]
          exact converging
      | some waiting =>
          simp only [Shift.step, found]
          split
          · rename_i isWriting
            exact converging.serve (List.mem_of_getElem? found) isWriting source
          · exact converging
  | answer place count =>
      cases found : shift.waiting[place]? with
      | none =>
          simp only [Shift.step, found]
          exact converging
      | some waiting =>
          simp only [Shift.step, found]
          by_cases isWriting : waiting.call.IsWriting
          · exact converging.settled found isWriting _
          · exact converging.answered found isWriting count
  | refuse place fault =>
      cases found : shift.waiting[place]? with
      | none =>
          simp only [Shift.step, found]
          exact converging
      | some waiting =>
          simp only [Shift.step, found]
          split
          · rename_i isWriting
            exact converging.settled found isWriting _
          · exact converging

theorem run [Row ρ] (converging : shift.Converging key) (steps : List (Shift.Step ρ))
    (orderly : ∀ step ∈ steps, step.IsOrderly key) : (shift.run steps).Converging key := by
  induction steps generalizing shift with
  | nil => exact converging
  | cons first steps inductionHypothesis =>
      refine inductionHypothesis (converging.step (orderly first List.mem_cons_self)) ?_
      intro step member
      exact orderly step (List.mem_cons_of_mem first member)

/-- Nothing has happened in a shift that begins, whatever happened to its cache. -/
theorem start (earlier : List (Cache.Step ρ)) (notifications : List Notification)
    (source : ListKey → List ρ) (key : ListKey) :
    (Shift.start ⟨(Traffic.start.run earlier).cache, notifications⟩ source).Converging key := by
  have stamped := Traffic.stamped_run earlier key
  refine ⟨?_, ⟨stamped.stamp_lt, stamped.fetchStamp_lt, ?_⟩, ?_⟩
  · intro waiting member
    exact absurd member List.not_mem_nil
  · intro arrival member
    exact absurd member List.not_mem_nil
  · rintro (⟨finding, member, -⟩ | ⟨waiting, member, -⟩)
    · exact absurd member List.not_mem_nil
    · exact absurd member List.not_mem_nil

end Converging

/-- Let only edits write to a list, let only their writes change the source, and let no
fetch fail. However their steps overlap, when every call has ended and a mutation was
committed or rolled back, the list holds the source's rows and is not stale. -/
theorem get?_run_eq_source [Row ρ] (key : ListKey) (earlier : List (Cache.Step ρ))
    (notifications : List Notification) (source : ListKey → List ρ)
    (steps : List (Shift.Step ρ)) (orderly : ∀ step ∈ steps, step.IsOrderly key)
    (after : Shift ρ)
    (ran : (Shift.start ⟨(Traffic.start.run earlier).cache, notifications⟩ source).run steps =
      after)
    (ended : after.waiting = []) (ending : ∃ finding ∈ after.findings, finding.IsEnding) :
    after.desk.cache.get? key = some (after.source key) ∧
      after.desk.cache.isStale? key = some false := by
  have converging := (Converging.start earlier notifications source key).run steps orderly
  rw [ran] at converging
  rcases converging.covered (.inl ending) with ⟨waiting, member, -⟩ | ⟨since, covered⟩
  · rw [ended] at member
    exact absurd member List.not_mem_nil
  · refine covered.settled ?_
    rw [outlook, ended]
    rfl

/-- A requisition with a status. -/
def requisition (status : RequisitionStatus) : Requisition :=
  ⟨"a", 1, status, "Ward A", .epoch⟩

/-- Two edits and a refresh overlap. The write of the first edit takes effect and is
confirmed, that of the second one is refused, and the oldest refresh lands last. -/
def overlappingEdits : List (Shift.Step Requisition) :=
  [.refresh .requisitions, .answer 0 0,
    .save ⟨.requisitions, [requisition .sent], false, .requisitions⟩,
    .refresh .requisitions,
    .save ⟨.requisitions, [requisition .finalised], false, .requisitions⟩,
    .serve 0 fun _ => [requisition .sent],
    .answer 0 1, .refuse 1 .transport, .answer 2 0, .answer 1 0, .answer 0 0]

theorem get?_run_overlappingEdits :
    ((Shift.start ⟨(Traffic.start.run []).cache, []⟩ fun _ => [requisition .draft]).run
        overlappingEdits).desk.cache.get? .requisitions = some [requisition .sent] ∧
      ((Shift.start ⟨(Traffic.start.run []).cache, []⟩ fun _ => [requisition .draft]).run
        overlappingEdits).desk.cache.isStale? .requisitions = some false := by
  refine get?_run_eq_source .requisitions [] [] (fun _ => [requisition .draft]) overlappingEdits
    ?_ _ rfl rfl ⟨.outcome .rolledBack, ?_, trivial⟩
  · simp [overlappingEdits, Step.IsOrderly]
  · exact List.mem_of_getElem? (i := 1) rfl

end Shift

end Depot
