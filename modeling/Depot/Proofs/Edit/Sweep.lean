import Depot.Proofs.Cache.Local
import Depot.Proofs.Cache.Stamps
import Depot.Rehearsal.Basic
import Mathlib.Data.List.Induction

/-!
Contract: the invalidation of a scope refreshes every list in it, whatever happens to the others.

A sweep invalidates the lists of a scope side by side. Each of them has two turns: in the first
it is marked stale and its rows are asked for, in the second the reply lands. The turns of
different lists come in any order, which is the order in which the source replies. A turn
touches only its own list, so each list comes out as if it was invalidated alone.

Owns: sweeps, what their turns keep, and where they end.
Does not own: calls (`Depot.Edit.Call`), and steps on a single list (`Depot.Proofs.Cache.Local`).
-/

namespace Depot

variable {ρ : Type}

/-! ### Calls side by side -/

/-- One of the calls of a sweep. -/
inductive Sweep.Part (ρ : Type) where
  /-- The invalidation of a list that has not begun. -/
  | unstarted (key : ListKey)
  | waiting (call : Call ρ)
  | finished (finding : Finding ρ)

/-- The calls that a sweep makes side by side. -/
structure Sweep (ρ : Type) where
  desk : Desk ρ
  parts : List (Sweep.Part ρ)
  /-- Every question so far, the oldest first. -/
  asked : List (Ask ρ)

namespace Sweep

namespace Part

def ofProgress : Call.Progress ρ → Part ρ
  | .waiting call => .waiting call
  | .finished finding => .finished finding

/-- What a part has found, if it is finished. -/
def finding? : Part ρ → Option (Finding ρ)
  | .unstarted _ | .waiting _ => none
  | .finished finding => some finding

end Part

/-- What a call asks next. -/
def asks : Call.Progress ρ → List (Ask ρ)
  | .waiting call => [call.ask]
  | .finished _ => []

/-- The invalidations of lists, none of which has begun. -/
def begin (desk : Desk ρ) (keys : List ListKey) : Sweep ρ :=
  ⟨desk, keys.map .unstarted, []⟩

/-- The sweep after the part at a place has gone on. -/
def proceed (sweep : Sweep ρ) (place : Nat) (went : Desk ρ × Call.Progress ρ) : Sweep ρ :=
  ⟨went.1, sweep.parts.set place (.ofProgress went.2), sweep.asked ++ asks went.2⟩

/-- The part at a place has its turn: it begins, or it takes the source's reply. -/
def turn (replies : (ask : Ask ρ) → ask.Reply) (sweep : Sweep ρ) (place : Nat) : Sweep ρ :=
  match sweep.parts[place]? with
  | some (.unstarted key) => sweep.proceed place (sweep.desk.startInvalidate key)
  | some (.waiting call) => sweep.proceed place (call.resume sweep.desk (replies call.ask))
  | some (.finished _) | none => sweep

def run (replies : (ask : Ask ρ) → ask.Reply) (sweep : Sweep ρ) (schedule : List Nat) : Sweep ρ :=
  schedule.foldl (turn replies) sweep

/-- What the sweep returns when all parts are finished. -/
def returned? (sweep : Sweep ρ) : Option (Except SourceFault Nat) :=
  (sweep.parts.mapM Part.finding?).map Finding.countOrFault

end Sweep

/-! ### One list of a sweep -/

/-- What a sweep makes of an entry: rows that arrive replace those that are there, and without
them it is stale. -/
def Entry.swept (entry : Entry ρ) (ticket : Nat) : Except SourceFault (List ρ) → Entry ρ
  | .ok rows => ⟨rows, entry.written, ticket, false⟩
  | .error _ => { entry with stale := true }

/-- An entry that was marked stale and is refreshed before anything else happens to it. -/
theorem Refresh.fill_marked {key : ListKey} {entry : Entry ρ} {ticket : Nat}
    (later : entry.fetched ≤ ticket) (reply : Except SourceFault (List ρ)) :
    (Refresh.mk key (some entry.written) ticket).fill (some { entry with stale := true }) reply =
      some (entry.swept ticket reply) := by
  cases reply with
  | ok rows => simp [Refresh.fill, Refresh.IsKept, Refresh.base, later, Entry.swept]
  | error fault => simp [Refresh.fill, Refresh.blame, later, Entry.swept]

theorem Refresh.result_marked {key : ListKey} {entry : Entry ρ} {ticket : Nat}
    (later : entry.fetched ≤ ticket) (reply : Except SourceFault (List ρ)) :
    (Refresh.mk key (some entry.written) ticket).result (some { entry with stale := true }) reply =
      reply := by
  cases reply with
  | ok rows => simp [Refresh.result, Refresh.IsKept, Refresh.base, later]
  | error fault => rfl

namespace Sweep

/-- Where the part of a key stands after a number of turns. -/
inductive Stands (before : Cache ρ) (replies : (ask : Ask ρ) → ask.Reply) (sweep : Sweep ρ)
    (key : ListKey) : Nat → Part ρ → Prop
  | unstarted (same : sweep.desk.cache.entries.get? key = before.entries.get? key)
      (silent : .fetch key ∉ sweep.asked) : Stands before replies sweep key 0 (.unstarted key)
  | waiting (entry : Entry ρ) (ticket : Nat) (present : before.entries.get? key = some entry)
      (later : entry.fetched ≤ ticket)
      (marked : sweep.desk.cache.entries.get? key = some { entry with stale := true })
      (asked : .fetch key ∈ sweep.asked) :
      Stands before replies sweep key 1 (.waiting (.refreshing ⟨key, some entry.written, ticket⟩))
  | finished (entry : Entry ρ) (ticket : Nat) (more : Nat)
      (present : before.entries.get? key = some entry)
      (landed : sweep.desk.cache.entries.get? key =
        some (entry.swept ticket (replies (.fetch key))))
      (asked : .fetch key ∈ sweep.asked) :
      Stands before replies sweep key (more + 2) (.finished (.rows (replies (.fetch key))))

/-- The list of a key was fetched and is as the reply leaves it. -/
def IsSwept (before : Cache ρ) (replies : (ask : Ask ρ) → ask.Reply) (sweep : Sweep ρ)
    (key : ListKey) : Prop :=
  .fetch key ∈ sweep.asked ∧ ∃ entry ticket, before.entries.get? key = some entry ∧
    sweep.desk.cache.entries.get? key = some (entry.swept ticket (replies (.fetch key)))

namespace Stands

variable {before : Cache ρ} {replies : (ask : Ask ρ) → ask.Reply} {sweep after : Sweep ρ}
  {key : ListKey} {turns : Nat} {part : Part ρ}

/-- What happens to other lists does not move the part of a key. -/
theorem frame (stands : Stands before replies sweep key turns part)
    (entry : after.desk.cache.entries.get? key = sweep.desk.cache.entries.get? key)
    (asked : .fetch key ∈ after.asked ↔ .fetch key ∈ sweep.asked) :
    Stands before replies after key turns part := by
  cases stands with
  | unstarted same silent => exact .unstarted (entry.trans same) (mt asked.mp silent)
  | waiting before ticket present later marked told =>
      exact .waiting before ticket present later (entry.trans marked) (asked.mpr told)
  | finished before ticket more present landed told =>
      exact .finished before ticket more present (entry.trans landed) (asked.mpr told)

theorem again (stands : Stands before replies sweep key turns part) (ended : 2 ≤ turns) :
    Stands before replies sweep key (turns + 1) part := by
  cases stands with
  | unstarted | waiting => omega
  | finished entry ticket more present landed asked =>
      exact .finished entry ticket (more + 1) present landed asked

/-- After its second turn a part is finished. -/
theorem ended (stands : Stands before replies sweep key turns part) (enough : 2 ≤ turns) :
    part = .finished (.rows (replies (.fetch key))) ∧ IsSwept before replies sweep key := by
  cases stands with
  | unstarted | waiting => omega
  | finished entry ticket more present landed asked =>
      exact ⟨rfl, asked, entry, ticket, present, landed⟩

end Stands

/-! ### Sweeps under way -/

/-- The keys are those of different lists, whose stamps are all drawn. -/
structure Sweepable (cache : Cache ρ) (keys : List ListKey) : Prop where
  distinct : keys.Nodup
  kept : ∀ key ∈ keys, ∃ entry, cache.entries.get? key = some entry ∧
    entry.fetched ≤ cache.nextStamp

/-- No list is fetched twice, and none but those of the keys. -/
structure FetchesOnce (keys : List ListKey) (asked : List (Ask ρ)) : Prop where
  once : asked.Nodup
  only : ∀ ask ∈ asked, ∃ key ∈ keys, ask = .fetch key

theorem FetchesOnce.fetch {keys : List ListKey} {asked : List (Ask ρ)}
    (fetches : FetchesOnce keys asked) {key : ListKey} (member : key ∈ keys)
    (silent : .fetch key ∉ asked) : FetchesOnce keys (asked ++ [.fetch key]) where
  once := by
    rw [← List.concat_eq_append]
    exact fetches.once.concat silent
  only := by
    intro ask told
    rcases List.mem_append.mp told with earlier | new
    · exact fetches.only ask earlier
    · exact ⟨key, member, List.mem_singleton.mp new⟩

/-- A sweep of keys after the turns of a schedule. -/
structure Running (before : Cache ρ) (replies : (ask : Ask ρ) → ask.Reply) (keys : List ListKey)
    (schedule : List Nat) (sweep : Sweep ρ) : Prop where
  sweepable : Sweepable before keys
  length : sweep.parts.length = keys.length
  stands : ∀ place key part, keys[place]? = some key → sweep.parts[place]? = some part →
    Stands before replies sweep key (schedule.count place) part
  others : ∀ key, key ∉ keys →
    sweep.desk.cache.entries.get? key = before.entries.get? key
  clock : before.nextStamp ≤ sweep.desk.cache.nextStamp
  fetches : FetchesOnce keys sweep.asked

theorem running_begin {desk : Desk ρ} {keys : List ListKey}
    (sweepable : Sweepable desk.cache keys) (replies : (ask : Ask ρ) → ask.Reply) :
    Running desk.cache replies keys [] (begin desk keys) where
  sweepable := sweepable
  length := List.length_map _
  stands := by
    intro place key part found stood
    rw [begin, List.getElem?_map, found] at stood
    cases stood
    exact .unstarted rfl List.not_mem_nil
  others := fun _ _ => rfl
  clock := Nat.le_refl _
  fetches := ⟨.nil, List.forall_mem_nil _⟩

/-- A turn is counted for its own place. -/
theorem count_turn_other {schedule : List Nat} {place other : Nat} (differs : place ≠ other) :
    (schedule ++ [place]).count other = schedule.count other := by
  rw [List.count_append, List.count_singleton, if_neg (by simpa using differs), Nat.add_zero]

theorem count_turn_self (schedule : List Nat) (place : Nat) :
    (schedule ++ [place]).count place = schedule.count place + 1 := by
  rw [List.count_append, List.count_singleton_self]

namespace Running

variable {before : Cache ρ} {replies : (ask : Ask ρ) → ask.Reply} {keys : List ListKey}
  {schedule : List Nat} {sweep : Sweep ρ} {place : Nat} {key : ListKey}

/-- A part that goes on leaves the others where they stand. -/
theorem proceed (running : Running before replies keys schedule sweep)
    (found : keys[place]? = some key) {went : Desk ρ × Call.Progress ρ}
    (own : Stands before replies (sweep.proceed place went) key (schedule.count place + 1)
      (.ofProgress went.2))
    (elsewhere : ∀ other, other ≠ key →
      went.1.cache.entries.get? other = sweep.desk.cache.entries.get? other)
    (clock : sweep.desk.cache.nextStamp ≤ went.1.cache.nextStamp)
    (ownAsks : ∀ ask ∈ asks went.2, ask = .fetch key)
    (fetches : FetchesOnce keys (sweep.asked ++ asks went.2)) :
    Running before replies keys (schedule ++ [place]) (sweep.proceed place went) where
  sweepable := running.sweepable
  length := (List.length_set ..).trans running.length
  stands := by
    intro other otherKey part otherFound stood
    have inside : place < keys.length := (List.getElem?_eq_some_iff.mp found).1
    by_cases same : place = other
    · subst same
      cases found.symm.trans otherFound
      rw [Sweep.proceed, List.getElem?_set_self (running.length ▸ inside)] at stood
      cases stood
      rw [count_turn_self]
      exact own
    · have differs : otherKey ≠ key := by
        rintro rfl
        have places := (found.trans otherFound.symm : keys[place]? = keys[other]?)
        exact same ((List.getElem?_inj inside running.sweepable.distinct).mp places)
      -- What the part asks is about its own list, so it starts no other part.
      have silent : .fetch otherKey ∉ asks went.2 := by
        intro told
        exact differs (Ask.fetch.inj (ownAsks _ told))
      rw [Sweep.proceed, List.getElem?_set_ne same] at stood
      rw [count_turn_other same]
      apply (running.stands other otherKey part otherFound stood).frame (elsewhere _ differs)
      simp [Sweep.proceed, silent]
  others := by
    intro other absent
    have differs : other ≠ key := fun same => absent (same ▸ List.mem_of_getElem? found)
    exact (elsewhere other differs).trans (running.others other absent)
  clock := Nat.le_trans running.clock clock
  fetches := fetches

/-- A part that has come to its end, or is not there, has no use for another turn. -/
theorem idle (running : Running before replies keys schedule sweep)
    (ended : ∀ key, keys[place]? = some key → 2 ≤ schedule.count place) :
    Running before replies keys (schedule ++ [place]) sweep where
  sweepable := running.sweepable
  length := running.length
  stands := by
    intro other key part found stood
    have stands := running.stands other key part found stood
    by_cases same : place = other
    · subst same
      rw [count_turn_self]
      exact stands.again (ended key found)
    · rw [count_turn_other same]
      exact stands
  others := running.others
  clock := running.clock
  fetches := running.fetches

/-- The first turn marks the list stale and asks for its rows. -/
theorem start (running : Running before replies keys schedule sweep)
    (found : keys[place]? = some key) (count : schedule.count place = 0)
    (same : sweep.desk.cache.entries.get? key = before.entries.get? key)
    (silent : .fetch key ∉ sweep.asked) :
    Running before replies keys (schedule ++ [place])
      (sweep.proceed place (sweep.desk.startInvalidate key)) := by
  have member := List.mem_of_getElem? found
  obtain ⟨entry, present, fetched⟩ := running.sweepable.kept key member
  have held := same.trans present
  have refresh : (sweep.desk.cache.beginInvalidate key).2 =
      ⟨key, some entry.written, sweep.desk.cache.nextStamp⟩ := by
    simp [Cache.beginInvalidate, Cache.begin, Cache.writtenStamp?, held]
  have waits : (sweep.desk.startInvalidate key).2 =
      .waiting (.refreshing ⟨key, some entry.written, sweep.desk.cache.nextStamp⟩) := by
    rw [← refresh]
    rfl
  have asks : Sweep.asks (sweep.desk.startInvalidate key).2 = [.fetch key] := by
    rw [waits]
    rfl
  apply running.proceed found
  · rw [count, waits]
    apply Stands.waiting entry _ present (Nat.le_trans fetched running.clock)
    · change (sweep.desk.cache.markStale key).entries.get? key = _
      rw [Cache.entries_markStale, if_pos rfl, held]
      rfl
    · rw [Sweep.proceed, asks]
      exact List.mem_append_right _ List.mem_cons_self
  · intro other differs
    change (sweep.desk.cache.markStale key).entries.get? other = _
    rw [Cache.entries_markStale, if_neg differs]
  · change _ ≤ (sweep.desk.cache.markStale key).nextStamp + 1
    rw [Cache.nextStamp_markStale]
    exact Nat.le_succ _
  · rw [asks]
    exact List.forall_mem_singleton.mpr rfl
  · rw [asks]
    exact running.fetches.fetch member silent

/-- The second turn lands the reply. -/
theorem finish (running : Running before replies keys schedule sweep)
    (found : keys[place]? = some key) (count : schedule.count place = 1) {entry : Entry ρ}
    {ticket : Nat} (present : before.entries.get? key = some entry)
    (later : entry.fetched ≤ ticket)
    (marked : sweep.desk.cache.entries.get? key = some { entry with stale := true })
    (asked : .fetch key ∈ sweep.asked) :
    Running before replies keys (schedule ++ [place])
      (sweep.proceed place
        ((Call.refreshing ⟨key, some entry.written, ticket⟩).resume sweep.desk
          (replies (.fetch key)))) := by
  have result := sweep.desk.cache.result_land ⟨key, some entry.written, ticket⟩
    (replies (.fetch key))
  rw [marked, Refresh.result_marked later] at result
  apply running.proceed found
  · rw [count]
    change Stands _ _ _ key 2 (.finished (.rows (Cache.land _ _ _).2))
    rw [result]
    apply Stands.finished entry ticket 0 present
    · change (Cache.land _ _ _).1.entries.get? key = _
      rw [Cache.entries_land, if_pos rfl, marked, Refresh.fill_marked later]
    · exact List.mem_append_left _ asked
  · intro other differs
    change (Cache.land _ _ _).1.entries.get? other = _
    rw [Cache.entries_land, if_neg differs]
  · change _ ≤ (Cache.land _ _ _).1.nextStamp
    exact Nat.le_of_eq (Cache.nextStamp_land _ _ _).symm
  · exact List.forall_mem_nil _
  · change FetchesOnce keys (sweep.asked ++ [])
    rw [List.append_nil]
    exact running.fetches

theorem turn (running : Running before replies keys schedule sweep) (place : Nat) :
    Running before replies keys (schedule ++ [place]) (sweep.turn replies place) := by
  cases found : keys[place]? with
  | none =>
      have beyond : sweep.parts[place]? = none := by
        rw [List.getElem?_eq_none_iff, running.length]
        exact List.getElem?_eq_none_iff.mp found
      simp only [Sweep.turn, beyond]
      apply running.idle
      intro key inside
      cases found.symm.trans inside
  | some key =>
      have inside : place < sweep.parts.length := by
        rw [running.length]
        exact (List.getElem?_eq_some_iff.mp found).1
      have stood := List.getElem?_eq_getElem inside
      have stands := running.stands place key _ found stood
      -- The number of turns that the part has had says what it is.
      generalize sweep.parts[place] = part at stood stands
      generalize count : schedule.count place = turns at stands
      simp only [Sweep.turn, stood]
      cases stands with
      | unstarted same silent => exact running.start found count same silent
      | waiting entry ticket present later marked asked =>
          exact running.finish found count present later marked asked
      | finished entry ticket more present landed asked =>
          apply running.idle
          intro _ _
          omega

theorem run (running : Running before replies keys [] sweep) (schedule : List Nat) :
    Running before replies keys schedule (sweep.run replies schedule) := by
  induction schedule using List.reverseRecOn with
  | nil => exact running
  | append_singleton schedule place inductionHypothesis =>
      rw [Sweep.run, List.foldl_append]
      exact inductionHypothesis.turn place

/-- When every part has had its two turns, all have ended. -/
theorem ended (running : Running before replies keys schedule sweep)
    (complete : ∀ place < keys.length, 2 ≤ schedule.count place) {part : Part ρ}
    (found : keys[place]? = some key) (stood : sweep.parts[place]? = some part) :
    part = .finished (.rows (replies (.fetch key))) ∧ IsSwept before replies sweep key := by
  have enough := complete place (List.getElem?_eq_some_iff.mp found).1
  exact (running.stands place key part found stood).ended enough

theorem parts_eq (running : Running before replies keys schedule sweep)
    (complete : ∀ place < keys.length, 2 ≤ schedule.count place) :
    sweep.parts = keys.map fun key => .finished (.rows (replies (.fetch key))) := by
  apply List.ext_getElem
  · rw [List.length_map, running.length]
  · intro place inside insideKeys
    have bound : place < keys.length := running.length ▸ inside
    have ended := running.ended complete (List.getElem?_eq_getElem bound)
      (List.getElem?_eq_getElem inside)
    rw [List.getElem_map]
    exact ended.1

theorem isSwept (running : Running before replies keys schedule sweep)
    (complete : ∀ place < keys.length, 2 ≤ schedule.count place) (member : key ∈ keys) :
    IsSwept before replies sweep key := by
  obtain ⟨place, bound, rfl⟩ := List.getElem_of_mem member
  have inside : place < sweep.parts.length := running.length ▸ bound
  have ended := running.ended complete (List.getElem?_eq_getElem bound)
    (List.getElem?_eq_getElem inside)
  exact ended.2

end Running

end Sweep

/-! ### What a sweep returns -/

namespace Finding

variable {results : List (Except SourceFault (List ρ))}

theorem countOrFault_ok (succeeded : ∀ result ∈ results, ∃ rows, result = .ok rows) :
    countOrFault (results.map .rows) = .ok results.length := by
  induction results with
  | nil => rfl
  | cons result results inductionHypothesis =>
      obtain ⟨⟨rows, rfl⟩, rest⟩ := List.forall_mem_cons.mp succeeded
      rw [List.map_cons, countOrFault, inductionHypothesis rest]
      · rfl
      · simp

theorem countOrFault_error (failed : ∃ fault, .error fault ∈ results) :
    ∃ fault, .error fault ∈ results ∧ countOrFault (results.map .rows) = .error fault := by
  induction results with
  | nil =>
      obtain ⟨fault, member⟩ := failed
      cases member
  | cons result results inductionHypothesis =>
      cases result with
      | error fault => exact ⟨fault, List.mem_cons_self, rfl⟩
      | ok rows =>
          obtain ⟨fault, member⟩ := failed
          have later : .error fault ∈ results := by simpa using member
          obtain ⟨first, member, counted⟩ := inductionHypothesis ⟨fault, later⟩
          refine ⟨first, List.mem_cons_of_mem _ member, ?_⟩
          rw [List.map_cons, countOrFault, counted]
          · rfl
          · simp

end Finding

namespace Sweep

/-- What the source replies to the fetches of lists. -/
def results (replies : (ask : Ask ρ) → ask.Reply) (keys : List ListKey) :
    List (Except SourceFault (List ρ)) :=
  keys.map fun key => replies (.fetch key)

theorem mapM_finding? (findings : List (Finding ρ)) :
    (findings.map Part.finished).mapM Part.finding? = some findings := by
  induction findings with
  | nil => rfl
  | cons finding findings inductionHypothesis =>
      rw [List.map_cons, List.mapM_cons, inductionHypothesis]
      rfl

/-! ### Where a sweep ends -/

/-- A sweep has ended as the replies say: each list of the scope was fetched once and holds what
the source replied, and all others are as before. -/
structure Settles (before : Cache ρ) (scope : Scope) (replies : (ask : Ask ρ) → ask.Reply)
    (after : Sweep ρ) : Prop where
  reached : ∀ key, key ∈ before.keysIn scope ↔ (before.get? key).isSome ∧ key.isIn scope
  distinct : (before.keysIn scope).Nodup
  once : after.asked.Nodup
  asked : ∀ ask, ask ∈ after.asked ↔ ∃ key ∈ before.keysIn scope, ask = .fetch key
  succeeds : (∀ key ∈ before.keysIn scope, ∃ rows, replies (.fetch key) = .ok rows) →
    after.returned? = some (.ok (before.keysIn scope).length)
  fails : (∃ key ∈ before.keysIn scope, ∃ fault, replies (.fetch key) = .error fault) →
    ∃ key ∈ before.keysIn scope, ∃ fault, replies (.fetch key) = .error fault ∧
      after.returned? = some (.error fault)
  /-- The list holds the rows of its own fetch, whatever became of the others. -/
  fetched : ∀ key ∈ before.keysIn scope, ∀ rows, replies (.fetch key) = .ok rows →
    after.desk.cache.get? key = some rows ∧ after.desk.cache.isStale? key = some false
  failed : ∀ key ∈ before.keysIn scope, ∀ fault, replies (.fetch key) = .error fault →
    after.desk.cache.get? key = before.get? key ∧ after.desk.cache.isStale? key = some true
  untouched : ∀ key, key ∉ before.keysIn scope →
    after.desk.cache.entries.get? key = before.entries.get? key

namespace Running

variable {before : Cache ρ} {scope : Scope} {replies : (ask : Ask ρ) → ask.Reply}
  {keys : List ListKey} {schedule : List Nat} {sweep : Sweep ρ}

theorem returned?_eq (running : Running before replies keys schedule sweep)
    (complete : ∀ place < keys.length, 2 ≤ schedule.count place) :
    sweep.returned? = some (Finding.countOrFault ((results replies keys).map .rows)) := by
  have finished : sweep.parts = ((results replies keys).map Finding.rows).map Part.finished := by
    rw [running.parts_eq complete, results, List.map_map, List.map_map]
    rfl
  rw [returned?, finished, mapM_finding?]
  rfl

theorem settles (running : Running before replies keys schedule sweep)
    (ordered : keys.Perm (before.keysIn scope))
    (complete : ∀ place < keys.length, 2 ≤ schedule.count place) :
    Settles before scope replies sweep where
  reached := fun key => before.mem_keysIn key scope
  distinct := before.nodup_keysIn scope
  once := running.fetches.once
  asked := by
    intro ask
    constructor
    · intro asked
      obtain ⟨key, member, rfl⟩ := running.fetches.only ask asked
      exact ⟨key, ordered.mem_iff.mp member, rfl⟩
    · rintro ⟨key, member, rfl⟩
      exact (running.isSwept complete (ordered.mem_iff.mpr member)).1
  succeeds := by
    intro all
    have succeeded : ∀ result ∈ results replies keys, ∃ rows, result = .ok rows := by
      intro result member
      obtain ⟨key, inside, rfl⟩ := List.mem_map.mp member
      exact all key (ordered.mem_iff.mp inside)
    rw [running.returned?_eq complete, Finding.countOrFault_ok succeeded, results,
      List.length_map, ordered.length_eq]
  fails := by
    rintro ⟨key, member, fault, failed⟩
    have among : .error fault ∈ results replies keys :=
      List.mem_map.mpr ⟨key, ordered.mem_iff.mpr member, failed⟩
    obtain ⟨first, told, counted⟩ := Finding.countOrFault_error ⟨fault, among⟩
    obtain ⟨own, inside, replied⟩ := List.mem_map.mp told
    refine ⟨own, ordered.mem_iff.mp inside, first, replied, ?_⟩
    rw [running.returned?_eq complete, counted]
  fetched := by
    intro key member rows replied
    obtain ⟨-, entry, ticket, -, landed⟩ :=
      running.isSwept complete (ordered.mem_iff.mpr member)
    rw [replied] at landed
    simp [Cache.get?, Cache.isStale?, landed, Entry.swept]
  failed := by
    intro key member fault replied
    obtain ⟨-, entry, ticket, present, landed⟩ :=
      running.isSwept complete (ordered.mem_iff.mpr member)
    rw [replied] at landed
    simp [Cache.get?, Cache.isStale?, present, landed, Entry.swept]
  untouched := by
    intro key away
    exact running.others key (mt ordered.mem_iff.mp away)

end Running

/-- Sweeps that have come to the same end, though they may return other faults. -/
structure Agrees (sweep other : Sweep ρ) : Prop where
  rows : ∀ key, sweep.desk.cache.get? key = other.desk.cache.get? key
  stale : ∀ key, sweep.desk.cache.isStale? key = other.desk.cache.isStale? key
  asked : sweep.asked.Perm other.asked
  counted : ∀ count, sweep.returned? = some (.ok count) ↔ other.returned? = some (.ok count)
  faulty : (∃ fault, sweep.returned? = some (.error fault)) ↔
    ∃ fault, other.returned? = some (.error fault)

namespace Settles

variable {before : Cache ρ} {scope : Scope} {replies : (ask : Ask ρ) → ask.Reply}
  {sweep other : Sweep ρ}

theorem list_eq (settles : Settles before scope replies sweep)
    (settlesOther : Settles before scope replies other) (key : ListKey) :
    sweep.desk.cache.get? key = other.desk.cache.get? key ∧
      sweep.desk.cache.isStale? key = other.desk.cache.isStale? key := by
  by_cases reached : key ∈ before.keysIn scope
  · cases replied : replies (.fetch key) with
    | ok rows =>
        obtain ⟨rows, stale⟩ := settles.fetched key reached rows replied
        obtain ⟨rowsOther, staleOther⟩ := settlesOther.fetched key reached _ replied
        exact ⟨rows.trans rowsOther.symm, stale.trans staleOther.symm⟩
    | error fault =>
        obtain ⟨rows, stale⟩ := settles.failed key reached fault replied
        obtain ⟨rowsOther, staleOther⟩ := settlesOther.failed key reached fault replied
        exact ⟨rows.trans rowsOther.symm, stale.trans staleOther.symm⟩
  · have same := (settles.untouched key reached).trans (settlesOther.untouched key reached).symm
    exact ⟨congrArg (Option.map Entry.rows) same, congrArg (Option.map Entry.stale) same⟩

/-- Both sweeps return the number of their lists, or both of them a fault. -/
theorem returned_cases (settles : Settles before scope replies sweep)
    (settlesOther : Settles before scope replies other) :
    sweep.returned? = other.returned? ∨
      ∃ fault faultOther, sweep.returned? = some (.error fault) ∧
        other.returned? = some (.error faultOther) := by
  by_cases all : ∀ key ∈ before.keysIn scope, ∃ rows, replies (.fetch key) = .ok rows
  · exact .inl ((settles.succeeds all).trans (settlesOther.succeeds all).symm)
  · right
    have failing : ∃ key ∈ before.keysIn scope, ∃ fault, replies (.fetch key) = .error fault := by
      obtain ⟨key, member, failed⟩ : ∃ key ∈ before.keysIn scope,
          ¬∃ rows, replies (.fetch key) = .ok rows := by simpa using all
      cases replied : replies (.fetch key) with
      | ok rows => exact absurd ⟨rows, replied⟩ failed
      | error fault => exact ⟨key, member, fault, replied⟩
    obtain ⟨_, _, fault, _, returned⟩ := settles.fails failing
    obtain ⟨_, _, faultOther, _, returnedOther⟩ := settlesOther.fails failing
    exact ⟨fault, faultOther, returned, returnedOther⟩

theorem agrees (settles : Settles before scope replies sweep)
    (settlesOther : Settles before scope replies other) : sweep.Agrees other where
  rows := fun key => (settles.list_eq settlesOther key).1
  stale := fun key => (settles.list_eq settlesOther key).2
  asked := by
    apply (List.perm_ext_iff_of_nodup settles.once settlesOther.once).mpr
    intro ask
    rw [settles.asked, settlesOther.asked]
  counted := by
    intro count
    rcases settles.returned_cases settlesOther with same | ⟨_, _, returned, returnedOther⟩
    · rw [same]
    · simp [returned, returnedOther]
  faulty := by
    rcases settles.returned_cases settlesOther with same | ⟨_, _, returned, returnedOther⟩
    · rw [same]
    · simp [returned, returnedOther]

end Settles

/-- The lists that a scope reaches can be swept, whatever has happened to the cache. -/
theorem sweepable_keysIn (steps : List (Cache.Step ρ)) {cache : Cache ρ}
    (cached : cache = (Traffic.start.run steps).cache) {scope : Scope} {keys : List ListKey}
    (ordered : keys.Perm (cache.keysIn scope)) : Sweepable cache keys where
  distinct := ordered.nodup_iff.mpr (cache.nodup_keysIn scope)
  kept := by
    intro key member
    have found := ((cache.mem_keysIn key scope).mp (ordered.mem_iff.mp member)).1
    rw [Cache.get?, Option.isSome_map] at found
    obtain ⟨entry, present⟩ := Option.isSome_iff_exists.mp found
    have stamped := (Traffic.stamped_run steps key).fetchStamp_lt
    simp only [Traffic.view, ← cached, present, Entry.fetchStamp_some] at stamped
    exact ⟨entry, present, Nat.le_of_lt stamped⟩

/-- When each list of a scope has had its two turns, a sweep has ended as the replies say. -/
theorem settles_run (steps : List (Cache.Step ρ)) {desk : Desk ρ}
    (cached : desk.cache = (Traffic.start.run steps).cache) (scope : Scope)
    (replies : (ask : Ask ρ) → ask.Reply) {keys : List ListKey}
    (ordered : keys.Perm (desk.cache.keysIn scope)) {schedule : List Nat}
    (complete : ∀ place < keys.length, 2 ≤ schedule.count place) :
    Settles desk.cache scope replies ((begin desk keys).run replies schedule) := by
  have sweepable := sweepable_keysIn steps cached ordered
  exact ((running_begin sweepable replies).run schedule).settles ordered complete

/-- However the lists of a scope and the turns of their refreshes are ordered, a sweep comes to
the same end, but for the fault that it returns. -/
theorem settles_inAnyOrder (steps : List (Cache.Step ρ)) {desk : Desk ρ}
    (cached : desk.cache = (Traffic.start.run steps).cache) (scope : Scope)
    (replies : (ask : Ask ρ) → ask.Reply) {keys : List ListKey}
    (ordered : keys.Perm (desk.cache.keysIn scope)) {schedule : List Nat}
    (complete : ∀ place < keys.length, 2 ≤ schedule.count place) :
    Settles desk.cache scope replies ((begin desk keys).run replies schedule) ∧
      ∀ others order, others.Perm (desk.cache.keysIn scope) →
        (∀ place < others.length, 2 ≤ order.count place) →
          ((begin desk keys).run replies schedule).Agrees
            ((begin desk others).run replies order) := by
  have settles := settles_run steps cached scope replies ordered complete
  refine ⟨settles, ?_⟩
  intro others order orderedOther completeOther
  exact settles.agrees (settles_run steps cached scope replies orderedOther completeOther)

/-! ### A sweep of two lists -/

namespace MixedScope

/-- Two lists of the inbound shipments, and one of another scope. -/
def steps : List (Cache.Step Nat) :=
  [.set (.shipments .inbound) [1], .set .requisitions [2], .set (.shipment .inbound 7) [3]]

def desk : Desk Nat := ⟨(Traffic.start.run steps).cache, []⟩

/-- Only the fetch of the shipments succeeds. -/
def replies : (ask : Ask Nat) → ask.Reply
  | .fetch (.shipments _) => .ok [4]
  | .fetch _ | .remove _ | .update _ => .error .transport

def keys : List ListKey := [.shipment .inbound 7, .shipments .inbound]

/-- The lists are marked and refreshed in turn, and one of them has a turn too many. -/
def schedule : List Nat := [0, 1, 0, 1, 1]

theorem settles_mixedScope :
    desk.cache = (Traffic.start.run steps).cache ∧
      keys.Perm (desk.cache.keysIn (.direction .inbound)) ∧
      (∀ place < keys.length, 2 ≤ schedule.count place) ∧
      let after := (begin desk keys).run replies schedule
      Settles desk.cache (.direction .inbound) replies after ∧
        after.desk.cache.get? (.shipments .inbound) = some [4] ∧
        after.desk.cache.get? (.shipment .inbound 7) = some [3] ∧
        after.returned? = some (.error .transport) := by
  have ordered : keys.Perm (desk.cache.keysIn (.direction .inbound)) := .swap _ _ _
  have complete : ∀ place < keys.length, 2 ≤ schedule.count place := by decide
  have settles :=
    (settles_inAnyOrder steps rfl (.direction .inbound) replies ordered complete).1
  exact ⟨rfl, ordered, complete, settles, rfl, rfl, rfl⟩

end MixedScope

end Sweep

end Depot
