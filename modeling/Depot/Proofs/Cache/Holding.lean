import Depot.Proofs.Cache.Stamps

/-!
Contract: what rows a list holds.

As long as a list is not dropped, it holds the rows of the newest refresh that
began after the last write and has landed, and the rows of the last write when
there is no such refresh. A refresh is outdated once a write came after its
beginning or once a refresh that began later has landed; whatever its reply, an
outdated refresh changes nothing.

Owns: the rows of a list, as its log tells them.
Does not own: whether the list is stale (`Depot.Proofs.Cache.Staleness`).
-/

namespace Depot

variable {ρ : Type}

namespace Deed

/-- The rows that a write left. -/
def written? : Deed ρ → Option (List ρ)
  | .wrote rows => some rows
  | .began _ | .landed _ _ => none

/-- The rows that the last write left. -/
def lastWritten? (log : List (Deed ρ)) : Option (List ρ) :=
  log.findSome? written?

@[simp]
theorem lastWritten?_wrote (rows : List ρ) (log : List (Deed ρ)) :
    lastWritten? (.wrote rows :: log) = some rows := rfl

@[simp]
theorem lastWritten?_began (begun : Refresh) (log : List (Deed ρ)) :
    lastWritten? (.began begun :: log) = lastWritten? log := rfl

@[simp]
theorem lastWritten?_landed (landed : Refresh) (reply : Except SourceFault (List ρ))
    (log : List (Deed ρ)) : lastWritten? (.landed landed reply :: log) = lastWritten? log := rfl

/-- The last write is in the log. -/
theorem wrote_mem_of_lastWritten? {log : List (Deed ρ)} {rows : List ρ}
    (last : lastWritten? log = some rows) : .wrote rows ∈ log := by
  obtain ⟨deed, member, written⟩ := List.exists_of_findSome?_eq_some last
  cases deed with
  | wrote other =>
      cases written
      exact member
  | began refresh => cases written
  | landed refresh reply => cases written

/-- Whether a refresh that began after the last write has landed with these rows. -/
def LandedSinceWrite (log : List (Deed ρ)) (refresh : Refresh) (rows : List ρ) : Prop :=
  .landed refresh (.ok rows) ∈ log ∧ ¬WrittenSince log refresh

/-- Whether of the refreshes that began after the last write and have landed this
one has the largest stamp. -/
def NewestSinceWrite (log : List (Deed ρ)) (refresh : Refresh) (rows : List ρ) : Prop :=
  LandedSinceWrite log refresh rows ∧
    ∀ other answer, LandedSinceWrite log other answer → other.ticket ≤ refresh.ticket

/-- Whether a refresh that began after this one has landed. -/
def Overtaken (log : List (Deed ρ)) (refresh : Refresh) : Prop :=
  ∃ later rows, After log (.began later) (.began refresh) ∧ .landed later (.ok rows) ∈ log

/-- Whether a write came after the beginning of a refresh, or a refresh that
began after it has landed. -/
def Outdated (log : List (Deed ρ)) (refresh : Refresh) : Prop :=
  WrittenSince log refresh ∨ Overtaken log refresh

@[simp]
theorem landedSinceWrite_began (begun : Refresh) (log : List (Deed ρ)) (refresh : Refresh)
    (rows : List ρ) :
    LandedSinceWrite (.began begun :: log) refresh rows ↔ LandedSinceWrite log refresh rows := by
  simp [LandedSinceWrite]

@[simp]
theorem landedSinceWrite_landed (landed : Refresh) (reply : Except SourceFault (List ρ))
    (log : List (Deed ρ)) (refresh : Refresh) (rows : List ρ) :
    LandedSinceWrite (.landed landed reply :: log) refresh rows ↔
      LandedSinceWrite log refresh rows ∨
        (refresh = landed ∧ .ok rows = reply ∧ ¬WrittenSince log landed) := by
  constructor
  · rintro ⟨member, unwritten⟩
    rw [writtenSince_landed] at unwritten
    rcases List.mem_cons.mp member with same | before
    · cases same
      exact .inr ⟨rfl, rfl, unwritten⟩
    · exact .inl ⟨before, unwritten⟩
  · rintro (⟨member, unwritten⟩ | ⟨rfl, rfl, unwritten⟩)
    · exact ⟨List.mem_cons_of_mem _ member, by simpa using unwritten⟩
    · exact ⟨List.mem_cons_self, by simpa using unwritten⟩

end Deed

namespace View

open Deed

variable {view : View ρ}

/-- No write came after the beginning of a refresh exactly when its stamp is
above the write stamp. -/
theorem Dated.unwritten_iff (dated : view.Dated) {refresh : Refresh}
    (begun : .began refresh ∈ view.log) :
    ¬WrittenSince view.log refresh ↔ Entry.stamp view.entry < refresh.ticket := by
  rw [dated.written refresh begun]
  exact Nat.not_le

/-- After a write no refresh has both begun and landed. -/
theorem Dated.not_landedSinceWrite_wrote (dated : view.Dated) (rows : List ρ) (refresh : Refresh)
    (answer : List ρ) : ¬LandedSinceWrite (.wrote rows :: view.log) refresh answer := by
  rintro ⟨member, unwritten⟩
  have landed : .landed refresh (.ok answer) ∈ view.log := by simpa using member
  exact unwritten ((writtenSince_wrote ..).mpr (dated.landed refresh _ landed).1)

/-- The entry of a view holds the rows that the log tells. -/
structure Filled (view : View ρ) : Prop where
  absent : view.entry = none →
    (∀ rows, .wrote rows ∉ view.log) ∧ ∀ refresh rows, .landed refresh (.ok rows) ∉ view.log
  newest : ∀ entry refresh rows, view.entry = some entry →
    LandedSinceWrite view.log refresh rows →
    refresh.ticket ≤ entry.fetched ∧ (refresh.ticket = entry.fetched → rows = entry.rows)
  held : ∀ entry, view.entry = some entry →
    (∃ refresh, LandedSinceWrite view.log refresh entry.rows ∧ refresh.ticket = entry.fetched) ∨
      ((∀ refresh rows, ¬LandedSinceWrite view.log refresh rows) ∧
        lastWritten? view.log = some entry.rows ∧ entry.fetched ≤ entry.written)
  fetched : ∀ entry, view.entry = some entry → entry.fetched = 0 ∨
    ∃ refresh rows, .landed refresh (.ok rows) ∈ view.log ∧ refresh.ticket = entry.fetched

/-- The rows of a refresh are kept exactly when it is not outdated. -/
theorem Filled.isKept_iff (filled : view.Filled) (dated : view.Dated) {refresh : Refresh}
    (begun : .began refresh ∈ view.log) :
    refresh.IsKept view.entry ↔ ¬Outdated view.log refresh := by
  rw [(dated.fits refresh begun).isKept_iff, Outdated, not_or, dated.unwritten_iff begun]
  refine and_congr_right fun unwritten => ?_
  constructor
  · rintro order ⟨later, rows, after, landed⟩
    have begunLater : .began later ∈ view.log := after.later_mem
    have newer := (dated.order refresh later begun begunLater).mp after
    have sinceWrite : LandedSinceWrite view.log later rows :=
      ⟨landed, (dated.unwritten_iff begunLater).mpr (Nat.lt_trans unwritten newer)⟩
    cases present : view.entry with
    | none => exact (filled.absent present).2 later rows landed
    | some entry =>
        rw [present] at order
        have bound := (filled.newest entry later rows present sinceWrite).1
        exact Nat.not_lt.mpr (Nat.le_trans bound order) newer
  · intro first
    cases present : view.entry with
    | none => exact Nat.zero_le _
    | some entry =>
        rcases filled.fetched entry present with none | ⟨later, rows, landed, ticket⟩
        · simp [none]
        · refine Nat.not_lt.mp fun newer => first ⟨later, rows, ?_, landed⟩
          have begunLater := (dated.landed later _ landed).1
          refine (dated.order refresh later begun begunLater).mpr ?_
          rw [ticket]
          exact newer

namespace Filled

/-- A write leaves its own rows. -/
theorem wrote (filled : view.Filled) (dated : view.Dated) (changed : Entry ρ)
    (drawn : changed.written = view.clock)
    (fetched : changed.fetched = 0 ∨ view.entry.map Entry.fetched = some changed.fetched) :
    Filled
      { view with
        entry := some changed
        clock := view.clock + 1
        log := .wrote changed.rows :: view.log } where
  absent := nofun
  newest := by
    intro entry refresh rows present landed
    exact absurd landed (dated.not_landedSinceWrite_wrote changed.rows refresh rows)
  held := by
    intro entry present
    cases present
    refine .inr ⟨dated.not_landedSinceWrite_wrote changed.rows, rfl, ?_⟩
    rw [drawn]
    rcases fetched with none | same
    · simp [none]
    · obtain ⟨entry, present, kept⟩ := Option.map_eq_some_iff.mp same
      rcases filled.fetched entry present with none | ⟨refresh, rows, landed, ticket⟩
      · simp [← kept, none]
      · rw [← kept, ← ticket]
        exact Nat.le_of_lt (dated.fits refresh (dated.landed refresh _ landed).1).ticket_lt
  fetched := by
    intro entry present
    cases present
    rcases fetched with none | same
    · exact .inl none
    · obtain ⟨entry, present, kept⟩ := Option.map_eq_some_iff.mp same
      simpa [kept] using filled.fetched entry present

/-- The rows of a refresh that is not outdated replace what was there. -/
theorem land_kept (filled : view.Filled) (dated : view.Dated) {refresh : Refresh}
    (flying : refresh ∈ view.flights) (rows : List ρ) (kept : refresh.IsKept view.entry) :
    (view.land refresh (.ok rows)).Filled := by
  have begun := dated.begun refresh flying
  obtain ⟨unwritten, order⟩ := (dated.fits refresh begun).isKept_iff.mp kept
  have landed : LandedSinceWrite (.landed refresh (.ok rows) :: view.log) refresh rows :=
    (landedSinceWrite_landed ..).mpr
      (.inr ⟨rfl, rfl, (dated.unwritten_iff begun).mpr unwritten⟩)
  have filledBy : (view.land refresh (.ok rows)).entry =
      some ⟨rows, refresh.base, refresh.ticket, false⟩ := by
    simp [View.land, Refresh.fill, kept]
  refine ⟨?_, ?_, ?_, ?_⟩
  · intro missing
    rw [filledBy] at missing
    cases missing
  · intro entry other answer present since
    rw [filledBy] at present
    cases present
    rcases (landedSinceWrite_landed ..).mp since with before | ⟨same, sameRows, -⟩
    · -- A refresh that landed before: its stamp is at most the one that the entry held.
      cases presentBefore : view.entry with
      | none => exact absurd before.1 ((filled.absent presentBefore).2 other answer)
      | some previous =>
          rw [presentBefore] at order
          have bound := (filled.newest previous other answer presentBefore before).1
          refine ⟨Nat.le_trans bound order, ?_⟩
          intro sameTicket
          obtain ⟨begunOther, away⟩ := dated.landed other _ before.1
          have same := dated.ticket_inj other refresh begunOther begun sameTicket
          exact absurd (same ▸ flying) away
    · cases same
      cases sameRows
      exact ⟨Nat.le_refl _, fun _ => rfl⟩
  · intro entry present
    rw [filledBy] at present
    cases present
    exact .inl ⟨refresh, landed, rfl⟩
  · intro entry present
    rw [filledBy] at present
    cases present
    exact .inr ⟨refresh, rows, List.mem_cons_self, rfl⟩

/-- A landing that leaves the rows leaves the entry filled when its own rows are
not newer. -/
theorem land_other (filled : view.Filled) {refresh : Refresh}
    (reply : Except SourceFault (List ρ))
    (entries : ∀ entry, (refresh.fill view.entry reply) = some entry →
      ∃ previous, view.entry = some previous ∧ previous.rows = entry.rows ∧
        previous.written = entry.written ∧ previous.fetched = entry.fetched)
    (absent : view.entry = none → ∀ rows, reply ≠ .ok rows)
    (old : ∀ rows, reply = .ok rows → ¬WrittenSince view.log refresh →
      Entry.stamp view.entry < Entry.fetchStamp view.entry ∧
        refresh.ticket < Entry.fetchStamp view.entry) :
    (view.land refresh reply).Filled := by
  refine ⟨?_, ?_, ?_, ?_⟩
  · intro missing
    have missingBefore : view.entry = none := Refresh.eq_none_of_fill_eq_none missing
    obtain ⟨unwritten, unlanded⟩ := filled.absent missingBefore
    refine ⟨by simpa [View.land] using unwritten, ?_⟩
    intro other rows member
    rcases List.mem_cons.mp member with same | before
    · cases same
      exact absent missingBefore rows rfl
    · exact unlanded other rows before
  · intro entry other answer present since
    obtain ⟨previous, presentBefore, rows, -, fetched⟩ := entries entry present
    rw [← rows, ← fetched]
    rcases (landedSinceWrite_landed ..).mp since with before | ⟨same, sameReply, unwritten⟩
    · exact filled.newest previous other answer presentBefore before
    · have newer := (old answer sameReply.symm unwritten).2
      rw [presentBefore, ← same] at newer
      exact ⟨Nat.le_of_lt newer, fun equal => absurd equal (Nat.ne_of_lt newer)⟩
  · intro entry present
    obtain ⟨previous, presentBefore, rows, written, fetched⟩ := entries entry present
    rw [← rows, ← written, ← fetched]
    rcases filled.held previous presentBefore with ⟨other, since, ticket⟩ | ⟨none, last, order⟩
    · exact .inl ⟨other, (landedSinceWrite_landed ..).mpr (.inl since), ticket⟩
    · refine .inr ⟨?_, last, order⟩
      intro other answer since
      rcases (landedSinceWrite_landed ..).mp since with before | ⟨-, sameReply, unwritten⟩
      · exact none other answer before
      · have newer := (old answer sameReply.symm unwritten).1
        rw [presentBefore] at newer
        exact absurd order (Nat.not_le.mpr newer)
  · intro entry present
    obtain ⟨previous, presentBefore, -, -, fetched⟩ := entries entry present
    rw [← fetched]
    rcases filled.fetched previous presentBefore with none | ⟨other, rows, landed, ticket⟩
    · exact .inl none
    · exact .inr ⟨other, rows, List.mem_cons_of_mem _ landed, ticket⟩

theorem land (filled : view.Filled) (dated : view.Dated) {refresh : Refresh}
    (flying : refresh ∈ view.flights) (reply : Except SourceFault (List ρ)) :
    (view.land refresh reply).Filled := by
  have begun := dated.begun refresh flying
  have keptIff := (dated.fits refresh begun).isKept_iff
  cases reply with
  | error fault =>
      refine filled.land_other _ ?_ nofun nofun
      intro entry present
      obtain ⟨previous, presentBefore, rfl⟩ := Option.map_eq_some_iff.mp present
      exact ⟨previous, presentBefore, by simp, by simp, by simp⟩
  | ok rows =>
      by_cases kept : refresh.IsKept view.entry
      · exact filled.land_kept dated flying rows kept
      · have same : refresh.fill view.entry (.ok rows) = view.entry := if_neg kept
        refine filled.land_other _ ?_ ?_ ?_
        · intro entry present
          exact ⟨entry, same ▸ present, rfl, rfl, rfl⟩
        · intro missing
          refine absurd (keptIff.mpr ?_) kept
          rw [missing]
          exact ⟨Nat.zero_lt_of_lt (dated.fits refresh begun).base_lt, Nat.zero_le _⟩
        · intro answer _ unwritten
          have above := (dated.unwritten_iff begun).mp unwritten
          have newer : refresh.ticket < Entry.fetchStamp view.entry :=
            Nat.lt_of_not_le fun order => kept (keptIff.mpr ⟨above, order⟩)
          exact ⟨Nat.lt_trans above newer, newer⟩

theorem set (filled : view.Filled) (dated : view.Dated) (rows : List ρ) :
    (view.set rows).Filled :=
  filled.wrote dated ⟨rows, view.clock, 0, false⟩ rfl (.inl rfl)

theorem move {key : ListKey} {before after : View ρ} (move : Move key before after)
    (filled : before.Filled) (dated : before.Dated) : after.Filled := by
  cases move with
  | pass clock later => exact { filled with }
  | update entry rows present =>
      refine filled.wrote dated { entry with rows, written := before.clock } rfl (.inr ?_)
      rw [present]
      rfl
  | mark entry present =>
      refine ⟨nofun, ?_, ?_, ?_⟩
      · intro changed refresh rows same
        cases same
        exact filled.newest entry refresh rows present
      · intro changed same
        cases same
        exact filled.held entry present
      · intro changed same
        cases same
        exact filled.fetched entry present
  | begin =>
      refine ⟨?_, ?_, ?_, ?_⟩
      · simpa [View.begin] using filled.absent
      · simpa [View.begin] using filled.newest
      · simpa [View.begin] using filled.held
      · simpa [View.begin] using filled.fetched

end Filled

/-- What the log tells about the rows of a list. -/
theorem Filled.rows_iff (filled : view.Filled) (rows : List ρ) :
    view.entry.map Entry.rows = some rows ↔
      (∃ refresh, NewestSinceWrite view.log refresh rows) ∨
        ((∀ refresh answer, ¬LandedSinceWrite view.log refresh answer) ∧
          lastWritten? view.log = some rows) := by
  constructor
  · intro found
    obtain ⟨entry, present, rfl⟩ := Option.map_eq_some_iff.mp found
    rcases filled.held entry present with ⟨refresh, since, ticket⟩ | ⟨none, last, -⟩
    · refine .inl ⟨refresh, since, ?_⟩
      intro other answer sinceOther
      rw [ticket]
      exact (filled.newest entry other answer present sinceOther).1
    · exact .inr ⟨none, last⟩
  · rintro (⟨refresh, since, newest⟩ | ⟨none, last⟩)
    · cases present : view.entry with
      | none => exact absurd since.1 ((filled.absent present).2 refresh rows)
      | some entry =>
          obtain ⟨bound, sameRows⟩ := filled.newest entry refresh rows present since
          rcases filled.held entry present with ⟨other, sinceOther, ticket⟩ | ⟨none, -, -⟩
          · have least := newest other entry.rows sinceOther
            rw [ticket] at least
            rw [sameRows (Nat.le_antisymm bound least)]
            rfl
          · exact absurd since (none refresh rows)
    · cases present : view.entry with
      | none =>
          exact absurd (wrote_mem_of_lastWritten? last) ((filled.absent present).1 rows)
      | some entry =>
          rcases filled.held entry present with ⟨other, sinceOther, -⟩ | ⟨-, lastRows, -⟩
          · exact absurd sinceOther (none other entry.rows)
          · rw [last] at lastRows
            cases lastRows
            rfl

end View

namespace Traffic

open Deed

variable {key : ListKey} {steps : List (Cache.Step ρ)} {traffic : Traffic ρ}

/-- Runs that do not drop a list keep what its view knows of the past. -/
theorem dated_filled_run (kept : ∀ step ∈ steps, ¬step.Forgets key)
    (atStart : (traffic.view key).Dated ∧ (traffic.view key).Filled) :
    ((traffic.run steps).view key).Dated ∧ ((traffic.run steps).view key).Filled := by
  refine @view_invariant ρ key (fun view => view.Dated ∧ view.Filled) ?_ ?_ ?_ steps ?_ traffic
    atStart
  · rintro view rows ⟨dated, filled⟩
    exact ⟨dated.set rows, filled.set dated rows⟩
  · rintro view refresh reply flying ⟨dated, filled⟩
    exact ⟨dated.land flying reply, filled.land dated flying reply⟩
  · rintro before after move ⟨dated, filled⟩
    exact ⟨View.Dated.move move dated, View.Filled.move move filled dated⟩
  · intro step member forgets
    exact absurd forgets (kept step member)

/-- Nothing has happened at the start. -/
theorem dated_filled_start :
    ((start : Traffic ρ).view key).Dated ∧ ((start : Traffic ρ).view key).Filled := by
  constructor
  · refine ⟨Nat.one_pos, ?_, ?_, ?_, ?_, ?_, List.nodup_nil, ?_⟩ <;> intros <;> contradiction
  · refine ⟨?_, ?_, ?_, ?_⟩
    · intro absent
      exact ⟨fun rows => List.not_mem_nil, fun refresh rows => List.not_mem_nil⟩
    · intros
      contradiction
    · intros
      contradiction
    · intros
      contradiction

/-- As long as a list is not dropped, it holds the rows of the newest refresh that
began after the last write, or those of the last write, and outdated refreshes
change nothing. -/
theorem get?_run_iff (key : ListKey) (steps : List (Cache.Step ρ))
    (kept : ∀ step ∈ steps, ¬step.Forgets key) :
    (∀ rows, (start.run steps).cache.get? key = some rows ↔
      (∃ refresh, NewestSinceWrite ((start.run steps).log key) refresh rows) ∨
        ((∀ refresh answer, ¬LandedSinceWrite ((start.run steps).log key) refresh answer) ∧
          lastWritten? ((start.run steps).log key) = some rows)) ∧
      ∀ refresh ∈ (start.run steps).flightsOf key,
        Outdated ((start.run steps).log key) refresh →
          ∀ reply, ((start.run steps).cache.land refresh reply).1 = (start.run steps).cache := by
  obtain ⟨dated, filled⟩ := dated_filled_run kept (dated_filled_start (ρ := ρ))
  refine ⟨filled.rows_iff, ?_⟩
  intro refresh flying outdated reply
  have refused := mt (filled.isKept_iff dated (dated.begun refresh flying)).mp
    (not_not_intro outdated)
  have refusedThere : ¬refresh.IsKept ((start.run steps).cache.entries.get? refresh.key) := by
    rw [key_of_mem_flightsOf flying]
    exact refused
  cases reply with
  | ok rows => exact Cache.land_not_kept _ refresh rows refusedThere
  | error fault => exact Cache.markFailed_not_kept _ refresh refusedThere

/-- A refresh begins before a write and two after it; the last one lands before the
others. -/
def overlapping : List (Cache.Step Nat) :=
  [.refresh .requisitions, .set .requisitions [1], .refresh .requisitions,
    .refresh .requisitions, .land .requisitions 2 (.ok [3]), .land .requisitions 0 (.ok [0])]

theorem get?_run_overlapping :
    (start.run overlapping).cache.get? .requisitions = some [3] ∧
      ((start.run overlapping).cache.land ⟨.requisitions, some 2, 3⟩ (.ok [2])).1 =
        (start.run overlapping).cache := by
  have log : (start.run overlapping).log .requisitions =
      [.landed ⟨.requisitions, none, 1⟩ (.ok [0]), .landed ⟨.requisitions, some 2, 4⟩ (.ok [3]),
        .began ⟨.requisitions, some 2, 4⟩, .began ⟨.requisitions, some 2, 3⟩, .wrote [1],
        .began ⟨.requisitions, none, 1⟩] := rfl
  have kept : ∀ step ∈ overlapping, ¬step.Forgets .requisitions := by
    simp [overlapping, Cache.Step.Forgets]
  obtain ⟨rows, outdated⟩ := get?_run_iff .requisitions overlapping kept
  rw [log] at rows outdated
  constructor
  · refine (rows [3]).mpr (.inl ⟨⟨.requisitions, some 2, 4⟩, ?_, ?_⟩)
    · simp [LandedSinceWrite]
    · rintro other answer ⟨landed, -⟩
      have either : other = ⟨.requisitions, none, 1⟩ ∧ answer = [0] ∨
          other = ⟨.requisitions, some 2, 4⟩ ∧ answer = [3] := by
        simpa using landed
      rcases either with ⟨rfl, -⟩ | ⟨rfl, -⟩ <;> decide
  · refine outdated _ (by decide) (.inr ⟨⟨.requisitions, some 2, 4⟩, [3], ?_, ?_⟩) _
    · simp
    · simp

end Traffic

end Depot
