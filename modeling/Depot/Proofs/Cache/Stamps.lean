import Depot.Proofs.Cache.Traffic

/-!
Contract: what stamps say about the past.

A refresh fits what is under its key when comparing stamps tells what happened
since it began: its own stamp is above the write stamp exactly when no write came
in between. Every step keeps every refresh that has begun fitting, as long as
nothing is dropped. `View.Dated` ties the stamps to the log in this way.

Owns: the order of a log, refreshes that fit, and views whose stamps are in order
and true.
Does not own: what the rows are (`Depot.Proofs.Cache.Holding`).
-/

namespace Depot

variable {ρ : Type}

/-! ### The order of a log -/

namespace Deed

/-- Whether one deed came after another in a log. -/
def After (log : List (Deed ρ)) (later earlier : Deed ρ) : Prop :=
  [later, earlier].Sublist log

@[simp]
theorem not_after_nil (later earlier : Deed ρ) : ¬After [] later earlier := by
  simp [After]

@[simp]
theorem after_cons (newest later earlier : Deed ρ) (log : List (Deed ρ)) :
    After (newest :: log) later earlier ↔
      After log later earlier ∨ later = newest ∧ earlier ∈ log := by
  unfold After
  rw [List.sublist_cons_iff]
  constructor
  · rintro (after | ⟨rest, same, sub⟩)
    · exact .inl after
    · cases same
      exact .inr ⟨rfl, List.singleton_sublist.mp sub⟩
  · rintro (after | ⟨rfl, member⟩)
    · exact .inl after
    · exact .inr ⟨[earlier], rfl, List.singleton_sublist.mpr member⟩

theorem After.later_mem {log : List (Deed ρ)} {later earlier : Deed ρ}
    (after : After log later earlier) : later ∈ log :=
  after.subset List.mem_cons_self

theorem After.earlier_mem {log : List (Deed ρ)} {later earlier : Deed ρ}
    (after : After log later earlier) : earlier ∈ log :=
  after.subset (List.mem_cons_of_mem later List.mem_cons_self)

/-- Whether a write came after the beginning of a refresh. -/
def WrittenSince (log : List (Deed ρ)) (refresh : Refresh) : Prop :=
  ∃ rows, After log (.wrote rows) (.began refresh)

theorem WrittenSince.mem {log : List (Deed ρ)} {refresh : Refresh}
    (written : WrittenSince log refresh) : .began refresh ∈ log := by
  obtain ⟨rows, after⟩ := written
  exact after.earlier_mem

@[simp]
theorem not_writtenSince_nil (refresh : Refresh) : ¬WrittenSince ([] : List (Deed ρ)) refresh := by
  simp [WrittenSince]

/-- A write comes after every beginning so far. -/
@[simp]
theorem writtenSince_wrote (rows : List ρ) (log : List (Deed ρ)) (refresh : Refresh) :
    WrittenSince (.wrote rows :: log) refresh ↔ .began refresh ∈ log := by
  constructor
  · rintro ⟨other, after⟩
    rcases (after_cons ..).mp after with after | ⟨-, member⟩
    · exact after.earlier_mem
    · exact member
  · intro member
    exact ⟨rows, (after_cons ..).mpr (.inr ⟨rfl, member⟩)⟩

@[simp]
theorem writtenSince_began (begun : Refresh) (log : List (Deed ρ)) (refresh : Refresh) :
    WrittenSince (.began begun :: log) refresh ↔ WrittenSince log refresh := by
  simp [WrittenSince]

@[simp]
theorem writtenSince_landed (landed : Refresh) (reply : Except SourceFault (List ρ))
    (log : List (Deed ρ)) (refresh : Refresh) :
    WrittenSince (.landed landed reply :: log) refresh ↔ WrittenSince log refresh := by
  simp [WrittenSince]

end Deed

/-! ### Refreshes that fit -/

/-- A refresh whose stamp was drawn after the write stamp that it counts on. -/
structure Refresh.Issued (clock : Nat) (refresh : Refresh) : Prop where
  base_lt : refresh.base < refresh.ticket
  ticket_lt : refresh.ticket < clock

theorem Refresh.Issued.later {clock after : Nat} {refresh : Refresh}
    (issued : refresh.Issued clock) (least : clock ≤ after) : refresh.Issued after :=
  ⟨issued.base_lt, Nat.lt_of_lt_of_le issued.ticket_lt least⟩

theorem Refresh.Issued.of_begin {entry : Option (Entry ρ)} {clock : Nat} (key : ListKey)
    (below : Entry.stamp entry < clock) :
    Refresh.Issued (clock + 1) ⟨key, entry.map Entry.written, clock⟩ :=
  ⟨below, Nat.lt_succ_self clock⟩

/-- A refresh whose stamps tell what happened under its key since it began. -/
structure Refresh.Fits (entry : Option (Entry ρ)) (clock : Nat) (refresh : Refresh) : Prop
    extends refresh.Issued clock where
  base_eq : refresh.base = Entry.stamp entry ↔ Entry.stamp entry < refresh.ticket
  absent : entry = none → refresh.writtenAt = none

namespace Refresh.Fits

variable {entry after : Option (Entry ρ)} {clock : Nat} {refresh : Refresh}

/-- The rows of a refresh are kept exactly when neither a write nor the rows of a
later refresh came in between. -/
theorem isKept_iff (fits : refresh.Fits entry clock) :
    refresh.IsKept entry ↔
      Entry.stamp entry < refresh.ticket ∧ Entry.fetchStamp entry ≤ refresh.ticket := by
  cases entry with
  | none =>
      have positive : 0 < refresh.ticket := Nat.zero_lt_of_lt fits.base_lt
      simp [IsKept, fits.absent rfl, positive]
  | some entry =>
      have baseEq := fits.base_eq
      simp only [Entry.stamp_some] at baseEq
      simp only [IsKept, Entry.stamp_some, Entry.fetchStamp_some, ← baseEq]
      exact and_congr_left' eq_comm

/-- A refresh goes on to fit while nothing is written and nothing is dropped. -/
theorem unwritten (fits : refresh.Fits entry clock) (same : Entry.stamp after = Entry.stamp entry)
    (kept : after = none → entry = none) {later : Nat} (least : clock ≤ later) :
    refresh.Fits after later where
  toIssued := fits.toIssued.later least
  base_eq := by rw [same]; exact fits.base_eq
  absent := fun absent => fits.absent (kept absent)

/-- A refresh goes on to fit when a write draws the next stamp. -/
theorem written (fits : refresh.Fits entry clock) {changed : Entry ρ}
    (drawn : changed.written = clock) : refresh.Fits (some changed) (clock + 1) where
  toIssued := fits.toIssued.later (Nat.le_succ clock)
  base_eq := by
    have baseLt := fits.base_lt
    have ticketLt := fits.ticket_lt
    simp only [Entry.stamp_some, drawn]
    omega
  absent := nofun

theorem of_begin (key : ListKey) (below : Entry.stamp entry < clock) :
    Fits entry (clock + 1) ⟨key, entry.map Entry.written, clock⟩ where
  toIssued := .of_begin key below
  base_eq := iff_of_true rfl below
  absent := by
    intro absent
    rw [absent]
    rfl

end Refresh.Fits

/-! ### Views whose stamps are in order -/

namespace View

/-- All stamps of a view were drawn from the counter, and every refresh drew its own
after the write that it saw. -/
structure Stamped (view : View ρ) : Prop where
  stamp_lt : Entry.stamp view.entry < view.clock
  fetchStamp_lt : Entry.fetchStamp view.entry < view.clock
  issued : ∀ refresh ∈ view.flights, refresh.Issued view.clock

namespace Stamped

variable {view : View ρ}

theorem set (stamped : view.Stamped) (rows : List ρ) : (view.set rows).Stamped where
  stamp_lt := Nat.lt_succ_self view.clock
  fetchStamp_lt := Nat.succ_pos view.clock
  issued := by
    intro refresh flying
    exact (stamped.issued refresh flying).later (Nat.le_succ _)

theorem land (stamped : view.Stamped) {refresh : Refresh} (flying : refresh ∈ view.flights)
    (reply : Except SourceFault (List ρ)) : (view.land refresh reply).Stamped where
  stamp_lt := by simpa [View.land] using stamped.stamp_lt
  fetchStamp_lt := by
    rcases refresh.fetchStamp_fill view.entry reply with same | own
    · rw [View.land, same]
      exact stamped.fetchStamp_lt
    · rw [View.land, own]
      exact (stamped.issued refresh flying).ticket_lt
  issued := by
    intro other member
    exact stamped.issued other (List.mem_of_mem_erase member)

theorem forget (stamped : view.Stamped) : view.forget.Stamped where
  stamp_lt := Nat.zero_lt_of_lt stamped.stamp_lt
  fetchStamp_lt := Nat.zero_lt_of_lt stamped.stamp_lt
  issued := stamped.issued

theorem move {key : ListKey} {before after : View ρ} (move : Move key before after)
    (stamped : before.Stamped) : after.Stamped := by
  have issuedLater : ∀ clock, before.clock ≤ clock →
      ∀ refresh ∈ before.flights, refresh.Issued clock :=
    fun clock later refresh flying => (stamped.issued refresh flying).later later
  cases move with
  | pass clock later =>
      exact ⟨Nat.lt_of_lt_of_le stamped.stamp_lt later,
        Nat.lt_of_lt_of_le stamped.fetchStamp_lt later, issuedLater clock later⟩
  | update entry rows present =>
      have fetchStampLt := stamped.fetchStamp_lt
      rw [present] at fetchStampLt
      exact ⟨Nat.lt_succ_self _, Nat.lt_succ_of_lt fetchStampLt, issuedLater _ (Nat.le_succ _)⟩
  | mark entry present =>
      have stampLt := stamped.stamp_lt
      have fetchStampLt := stamped.fetchStamp_lt
      rw [present] at stampLt fetchStampLt
      exact ⟨stampLt, fetchStampLt, stamped.issued⟩
  | begin =>
      refine ⟨Nat.lt_succ_of_lt stamped.stamp_lt, Nat.lt_succ_of_lt stamped.fetchStamp_lt, ?_⟩
      intro refresh flying
      rcases List.mem_append.mp flying with old | new
      · exact issuedLater _ (Nat.le_succ _) refresh old
      · rw [List.mem_singleton.mp new]
        exact .of_begin key stamped.stamp_lt

end Stamped

end View

/-- Stamps that are in order stay so. -/
theorem Traffic.stamped_run_from {traffic : Traffic ρ} {key : ListKey}
    (stamped : (traffic.view key).Stamped) (steps : List (Cache.Step ρ)) :
    ((traffic.run steps).view key).Stamped := by
  refine @Traffic.view_invariant ρ key View.Stamped ?_ ?_ ?_ steps ?_ traffic stamped
  · intro view rows stamped
    exact stamped.set rows
  · intro view refresh reply flying stamped
    exact stamped.land flying reply
  · intro before after move stamped
    exact View.Stamped.move move stamped
  · intro step _ _ view stamped
    exact stamped.forget

/-- The stamps of every list are in order in every run. -/
theorem Traffic.stamped_run (steps : List (Cache.Step ρ)) (key : ListKey) :
    ((Traffic.start.run steps).view key).Stamped := by
  have atStart : ((Traffic.start : Traffic ρ).view key).Stamped := by
    refine ⟨Nat.one_pos, Nat.one_pos, ?_⟩
    intro refresh flying
    exact absurd flying List.not_mem_nil
  exact Traffic.stamped_run_from atStart steps

/-! ### Views whose stamps are true -/

namespace View

/-- The stamps of a view say what its log says. -/
structure Dated (view : View ρ) : Prop where
  stamp_lt : Entry.stamp view.entry < view.clock
  fits : ∀ refresh, .began refresh ∈ view.log → refresh.Fits view.entry view.clock
  written : ∀ refresh, .began refresh ∈ view.log →
    (Deed.WrittenSince view.log refresh ↔ refresh.ticket ≤ Entry.stamp view.entry)
  order : ∀ earlier later, .began earlier ∈ view.log → .began later ∈ view.log →
    (Deed.After view.log (.began later) (.began earlier) ↔ earlier.ticket < later.ticket)
  ticket_inj : ∀ refresh other, .began refresh ∈ view.log → .began other ∈ view.log →
    refresh.ticket = other.ticket → refresh = other
  begun : ∀ refresh ∈ view.flights, .began refresh ∈ view.log
  nodup : view.flights.Nodup
  landed : ∀ refresh reply, .landed refresh reply ∈ view.log →
    .began refresh ∈ view.log ∧ refresh ∉ view.flights

namespace Dated

variable {view : View ρ}

/-- A write draws the next stamp. -/
theorem wrote (dated : view.Dated) {changed : Entry ρ} (drawn : changed.written = view.clock)
    (rows : List ρ) :
    Dated
      { view with
        entry := some changed
        clock := view.clock + 1
        log := .wrote rows :: view.log } where
  stamp_lt := by simp [drawn]
  fits := by
    intro refresh begun
    exact (dated.fits refresh (by simpa using begun)).written drawn
  written := by
    intro refresh begun
    have member : .began refresh ∈ view.log := by simpa using begun
    have below := (dated.fits refresh member).ticket_lt
    simp [member, drawn, Nat.le_of_lt below]
  order := by simpa using dated.order
  ticket_inj := by simpa using dated.ticket_inj
  begun := by simpa using dated.begun
  nodup := dated.nodup
  landed := by simpa using dated.landed

theorem set (dated : view.Dated) (rows : List ρ) : (view.set rows).Dated :=
  dated.wrote rfl rows

theorem land (dated : view.Dated) {refresh : Refresh} (flying : refresh ∈ view.flights)
    (reply : Except SourceFault (List ρ)) : (view.land refresh reply).Dated where
  stamp_lt := by simpa [View.land] using dated.stamp_lt
  fits := by
    intro other begun
    refine (dated.fits other (by simpa [View.land] using begun)).unwritten
      (refresh.stamp_fill view.entry reply) ?_ (Nat.le_refl _)
    exact Refresh.eq_none_of_fill_eq_none
  written := by simpa [View.land] using dated.written
  order := by simpa [View.land] using dated.order
  ticket_inj := by simpa [View.land] using dated.ticket_inj
  begun := by
    intro other member
    have before := dated.begun other (List.mem_of_mem_erase member)
    simpa [View.land] using before
  nodup := dated.nodup.erase refresh
  landed := by
    intro other answer member
    rcases List.mem_cons.mp member with same | before
    · cases same
      refine ⟨List.mem_cons_of_mem _ (dated.begun refresh flying), ?_⟩
      exact dated.nodup.not_mem_erase
    · obtain ⟨begun, away⟩ := dated.landed other answer before
      exact ⟨List.mem_cons_of_mem _ begun, fun back => away (List.mem_of_mem_erase back)⟩

theorem begin (dated : view.Dated) (key : ListKey) : (view.begin key).Dated := by
  have fresh : ∀ refresh, .began refresh ∈ view.log → refresh.ticket < view.clock :=
    fun refresh begun => (dated.fits refresh begun).ticket_lt
  -- The new stamp is above every stamp in the log, so the new refresh is in none of it.
  have unknown : .began ⟨key, view.entry.map Entry.written, view.clock⟩ ∉ view.log :=
    fun begun => Nat.lt_irrefl _ (fresh _ begun)
  refine ⟨?_, ?_, ?_, ?_, ?_, ?_, ?_, ?_⟩
  · exact Nat.lt_succ_of_lt dated.stamp_lt
  · intro refresh begun
    rcases List.mem_cons.mp begun with same | before
    · cases same
      exact .of_begin key dated.stamp_lt
    · exact (dated.fits refresh before).unwritten rfl id (Nat.le_succ _)
  · intro refresh begun
    rcases List.mem_cons.mp begun with same | before
    · cases same
      have below := dated.stamp_lt
      have unwritten : ¬Deed.WrittenSince view.log
          ⟨key, view.entry.map Entry.written, view.clock⟩ := fun written => unknown written.mem
      simpa [View.begin, unwritten] using below
    · simpa [View.begin] using dated.written refresh before
  · intro earlier later begunEarlier begunLater
    rcases List.mem_cons.mp begunEarlier with sameEarlier | beforeEarlier
    · cases sameEarlier
      have bound : later.ticket ≤ view.clock := by
        rcases List.mem_cons.mp begunLater with sameLater | beforeLater
        · cases sameLater
          exact Nat.le_refl _
        · exact Nat.le_of_lt (fresh later beforeLater)
      refine iff_of_false ?_ (Nat.not_lt.mpr bound)
      intro after
      rcases (Deed.after_cons ..).mp after with after | ⟨-, member⟩
      · exact unknown after.earlier_mem
      · exact unknown member
    · rcases List.mem_cons.mp begunLater with sameLater | beforeLater
      · cases sameLater
        refine iff_of_true ?_ (fresh earlier beforeEarlier)
        exact (Deed.after_cons ..).mpr (.inr ⟨rfl, beforeEarlier⟩)
      · have differs : later ≠ ⟨key, view.entry.map Entry.written, view.clock⟩ := by
          rintro rfl
          exact unknown beforeLater
        simpa [View.begin, differs] using dated.order earlier later beforeEarlier beforeLater
  · intro refresh other begun begunOther sameTicket
    rcases List.mem_cons.mp begun with same | before
    · rcases List.mem_cons.mp begunOther with sameOther | beforeOther
      · cases same
        cases sameOther
        rfl
      · cases same
        exact absurd sameTicket (Nat.ne_of_gt (fresh other beforeOther))
    · rcases List.mem_cons.mp begunOther with sameOther | beforeOther
      · cases sameOther
        exact absurd sameTicket (Nat.ne_of_lt (fresh refresh before))
      · exact dated.ticket_inj refresh other before beforeOther sameTicket
  · intro refresh member
    rcases List.mem_append.mp member with before | new
    · exact List.mem_cons_of_mem _ (dated.begun refresh before)
    · rw [List.mem_singleton.mp new]
      exact List.mem_cons_self
  · refine List.nodup_append.mpr ⟨dated.nodup, List.pairwise_singleton .., ?_⟩
    intro refresh before other new same
    rw [List.mem_singleton.mp new] at same
    exact unknown (same ▸ dated.begun refresh before)
  · intro refresh reply member
    have before : .landed refresh reply ∈ view.log := by simpa [View.begin] using member
    obtain ⟨begun, away⟩ := dated.landed refresh reply before
    refine ⟨List.mem_cons_of_mem _ begun, ?_⟩
    intro back
    rcases List.mem_append.mp back with back | new
    · exact away back
    · rw [List.mem_singleton.mp new] at begun
      exact unknown begun

theorem move {key : ListKey} {before after : View ρ} (move : Move key before after)
    (dated : before.Dated) : after.Dated := by
  cases move with
  | pass clock later =>
      refine { dated with stamp_lt := Nat.lt_of_lt_of_le dated.stamp_lt later, fits := ?_ }
      intro refresh begun
      exact (dated.fits refresh begun).unwritten rfl id later
  | update entry rows present => exact dated.wrote rfl rows
  | mark entry present =>
      have same : Entry.stamp (some { entry with stale := true }) = Entry.stamp before.entry := by
        rw [present]
        rfl
      refine { dated with stamp_lt := ?_, fits := ?_, written := ?_ }
      · rw [same]
        exact dated.stamp_lt
      · intro refresh begun
        exact (dated.fits refresh begun).unwritten same nofun (Nat.le_refl _)
      · rw [same]
        exact dated.written
  | begin => exact dated.begin key

end Dated

end View

end Depot
