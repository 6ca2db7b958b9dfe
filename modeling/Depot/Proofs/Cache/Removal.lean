import Depot.Proofs.Cache.Stamps

/-!
Contract: what becomes of a list that was dropped.

After a list was dropped, only a set or a refresh that began afterwards should bring
one back. A refresh that was on its way then is recognized when it lands on a newer
list, by the stamps, and when it lands on no list, if there was one as it began. A
refresh that began when there was no list and lands when there is none again is not
recognized, whatever happened in between.

Owns: when a dropped list stays away.
Does not own: the stamps (`Depot.Proofs.Cache.Stamps`).
-/

namespace Depot

variable {ρ : Type}

namespace View

/-- The refreshes on their way are old ones, from before a moment, or began after it,
and the list, if there is one, was written or fetched after it. -/
structure Renewed (old : List Refresh) (since : Nat) (view : View ρ) : Prop
    extends view.Stamped where
  since_le : since ≤ view.clock
  young : ∀ refresh ∈ view.flights, refresh ∉ old → since ≤ refresh.ticket
  renewed : ∀ entry, view.entry = some entry → since ≤ entry.written ∨ since ≤ entry.fetched

namespace Renewed

variable {old : List Refresh} {since : Nat} {view : View ρ}

/-- The rows of an old refresh are not kept, except those of one that began when there
was no list, where there is none again. -/
theorem not_isKept (renewed : view.Renewed old since) {refresh : Refresh}
    (flying : refresh ∈ view.flights) (early : refresh.ticket < since)
    (found : refresh.writtenAt = none → view.entry ≠ none) : ¬refresh.IsKept view.entry := by
  intro kept
  have below := (renewed.issued refresh flying).base_lt
  cases present : view.entry with
  | none =>
      rw [present] at kept
      exact found kept present
  | some entry =>
      rw [present] at kept
      -- The entry's write stamp is the refresh's base, so the entry was fetched late.
      obtain ⟨written, order⟩ := kept
      rcases renewed.renewed entry present with late | late
      · omega
      · omega

theorem set (renewed : view.Renewed old since) (rows : List ρ) :
    (view.set rows).Renewed old since where
  toStamped := renewed.toStamped.set rows
  since_le := Nat.le_succ_of_le renewed.since_le
  young := renewed.young
  renewed := by
    intro entry present
    cases present
    exact .inl renewed.since_le

theorem forget (renewed : view.Renewed old since) : view.forget.Renewed old since where
  toStamped := renewed.toStamped.forget
  since_le := renewed.since_le
  young := renewed.young
  renewed := nofun

theorem land (renewed : view.Renewed old since) {refresh : Refresh}
    (flying : refresh ∈ view.flights) (reply : Except SourceFault (List ρ))
    (dropped : ∀ rows, reply = .ok rows → refresh ∈ old → ¬refresh.IsKept view.entry) :
    (view.land refresh reply).Renewed old since where
  toStamped := renewed.toStamped.land flying reply
  since_le := renewed.since_le
  young := by
    intro other member
    exact renewed.young other (List.mem_of_mem_erase member)
  renewed := by
    intro entry present
    cases reply with
    | error fault =>
        obtain ⟨previous, presentBefore, rfl⟩ := Option.map_eq_some_iff.mp present
        simpa using renewed.renewed previous presentBefore
    | ok rows =>
        by_cases kept : refresh.IsKept view.entry
        · have young : refresh ∉ old := fun member => dropped rows rfl member kept
          have filled : some ⟨rows, refresh.base, refresh.ticket, false⟩ = some entry := by
            rw [← present]
            exact (if_pos kept).symm
          cases filled
          exact .inr (renewed.young refresh flying young)
        · have same : refresh.fill view.entry (.ok rows) = view.entry := if_neg kept
          exact renewed.renewed entry (same ▸ present)

theorem move {key : ListKey} {before after : View ρ} (move : Move key before after)
    (renewed : before.Renewed old since) : after.Renewed old since := by
  have stamped := Stamped.move move renewed.toStamped
  have clock := renewed.since_le
  cases move with
  | pass _ later =>
      exact ⟨stamped, Nat.le_trans clock later, renewed.young, renewed.renewed⟩
  | update entry rows present =>
      refine ⟨stamped, Nat.le_succ_of_le clock, renewed.young, ?_⟩
      intro changed same
      cases same
      exact .inl clock
  | mark entry present =>
      refine ⟨stamped, clock, renewed.young, ?_⟩
      intro changed same
      cases same
      exact renewed.renewed entry present
  | begin =>
      refine ⟨stamped, Nat.le_succ_of_le clock, ?_, renewed.renewed⟩
      intro refresh flying young
      rcases List.mem_append.mp flying with before | new
      · exact renewed.young refresh before young
      · rw [List.mem_singleton.mp new]
        exact clock

end Renewed

/-- Where there is no list, moves bring none. -/
theorem Move.absent {key : ListKey} {before after : View ρ} (move : Move key before after)
    (absent : before.entry = none) : after.entry = none := by
  cases move with
  | pass | begin => exact absent
  | update entry rows present => exact absurd (present.symm.trans absent) nofun
  | mark entry present => exact absurd (present.symm.trans absent) nofun

theorem Moves.absent {key : ListKey} {before after : View ρ} (moves : Moves key before after)
    (absent : before.entry = none) : after.entry = none :=
  @Moves.invariant ρ key (fun view => view.entry = none) (fun _ _ move => move.absent) _ _ moves
    absent

end View

namespace Traffic

variable {key : ListKey} {traffic : Traffic ρ}

/-- Where there is no list, only a set or a refresh that began when there was none
brings one. -/
theorem step_brings {step : Cache.Step ρ} (absent : traffic.cache.get? key = none)
    (present : (traffic.step step).cache.get? key ≠ none) :
    (∃ rows, step = .set key rows) ∨
      ∃ place rows refresh, step = .land key place (.ok rows) ∧
        traffic.flight? key place = some refresh ∧ refresh.writtenAt = none := by
  have absentEntry : (traffic.view key).entry = none := by
    simpa [Cache.get?, view] using absent
  have presentEntry : ((traffic.step step).view key).entry ≠ none := by
    simpa [Cache.get?, view] using present
  rcases traffic.step_cases key step with
    ⟨rows, same, -⟩ | ⟨place, reply, refresh, same, found, after⟩ | ⟨-, after⟩ | moves
  · exact .inl ⟨rows, same⟩
  · rw [after] at presentEntry
    cases reply with
    | error fault =>
        refine absurd ?_ presentEntry
        simp [View.land, Refresh.fill, absentEntry]
    | ok rows =>
        refine .inr ⟨place, rows, refresh, same, found, ?_⟩
        by_cases kept : refresh.IsKept (traffic.view key).entry
        · rw [absentEntry] at kept
          exact kept
        · refine absurd ?_ presentEntry
          simpa [View.land, Refresh.fill, kept] using absentEntry
  · rw [after] at presentEntry
    exact absurd rfl presentEntry
  · refine absurd ?_ presentEntry
    exact moves.absent absentEntry

/-- Whether, wherever a run is cut, no old refresh stores its rows, and only a set or
a refresh that is not old brings a list where there is none. -/
def StaysGone (traffic : Traffic ρ) (key : ListKey) (old : List Refresh)
    (later : List (Cache.Step ρ)) : Prop :=
  ∀ early next rest, later = early ++ next :: rest →
    (∀ place rows refresh, next = .land key place (.ok rows) →
      (traffic.run early).flight? key place = some refresh → refresh ∈ old →
      ((traffic.run early).step next).cache = (traffic.run early).cache) ∧
    ((traffic.run early).cache.get? key = none →
      ((traffic.run early).step next).cache.get? key ≠ none →
      (∃ rows, next = .set key rows) ∨
        ∃ place rows refresh, next = .land key place (.ok rows) ∧
          (traffic.run early).flight? key place = some refresh ∧ refresh ∉ old)

/-- Whether in a run no old refresh that began when there was no list lands where
there is none again. -/
def NoneUnrecognized (traffic : Traffic ρ) (key : ListKey) (old : List Refresh)
    (later : List (Cache.Step ρ)) : Prop :=
  ∀ early rest place rows refresh, later = early ++ .land key place (.ok rows) :: rest →
    (traffic.run early).flight? key place = some refresh → refresh ∈ old →
    refresh.writtenAt = none → (traffic.run early).cache.get? key ≠ none

/-- A step after which the list is still renewed. -/
theorem renewed_step {old : List Refresh} {since : Nat}
    (bound : ∀ refresh ∈ old, refresh.ticket < since) {step : Cache.Step ρ}
    (recognized : ∀ place rows refresh, step = .land key place (.ok rows) →
      traffic.flight? key place = some refresh → refresh ∈ old →
      refresh.writtenAt = none → (traffic.view key).entry ≠ none)
    (renewed : (traffic.view key).Renewed old since) :
    ((traffic.step step).view key).Renewed old since := by
  rcases traffic.step_cases key step with
    ⟨rows, -, after⟩ | ⟨place, reply, refresh, same, found, after⟩ | ⟨-, after⟩ | moves
  · rw [after]
    exact renewed.set rows
  · rw [after]
    have flying := mem_flightsOf found
    refine renewed.land flying reply ?_
    intro rows sameReply member
    refine renewed.not_isKept flying (bound refresh member) ?_
    exact recognized place rows refresh (sameReply ▸ same) found member
  · rw [after]
    exact renewed.forget
  · exact View.Moves.invariant (fun _ _ => View.Renewed.move) moves renewed

/-- A list that is renewed stays away as told exactly when no refresh escapes
recognition. -/
theorem staysGone_iff_noneUnrecognized {old : List Refresh} {since : Nat}
    (bound : ∀ refresh ∈ old, refresh.ticket < since)
    (renewed : (traffic.view key).Renewed old since) (later : List (Cache.Step ρ)) :
    traffic.StaysGone key old later ↔ traffic.NoneUnrecognized key old later := by
  have entry_ne : ∀ traffic : Traffic ρ,
      traffic.cache.get? key ≠ none ↔ (traffic.view key).entry ≠ none := by
    intro traffic
    simp [Cache.get?, view]
  constructor
  · intro stays early rest place rows refresh cut found member unknown present
    have same := (stays early _ rest cut).1 place rows refresh rfl found member
    have mine := key_of_mem_flightsOf (mem_flightsOf found)
    have absent : (traffic.run early).cache.entries.get? refresh.key = none := by
      rw [mine]
      simpa [Cache.get?] using present
    have kept : refresh.IsKept ((traffic.run early).cache.entries.get? refresh.key) := by
      rw [absent]
      exact unknown
    simp only [step, found] at same
    have stored : ((traffic.run early).cache.land refresh (.ok rows)).1.entries.get? refresh.key =
        some ⟨rows, refresh.base, refresh.ticket, false⟩ := by
      rw [Cache.entries_land, if_pos rfl]
      exact if_pos kept
    rw [show ((traffic.run early).cache.land refresh (.ok rows)).1 = _ from same, absent] at stored
    contradiction
  · -- As long as every old refresh is recognized, the list stays renewed.
    intro recognized
    have renewedAt : ∀ early rest, later = early ++ rest →
        ((traffic.run early).view key).Renewed old since := by
      refine @prefix_invariant ρ (fun traffic => (traffic.view key).Renewed old since) traffic
        later renewed ?_
      intro early next rest cut renewedThere
      refine renewed_step bound ?_ renewedThere
      intro place rows refresh same found member unknown
      exact (entry_ne _).mp
        (recognized early rest place rows refresh (same ▸ cut) found member unknown)
    intro early next rest cut
    have renewedThere := renewedAt early (next :: rest) cut
    constructor
    · intro place rows refresh same found member
      have flying := mem_flightsOf found
      have mine := key_of_mem_flightsOf flying
      have refused : ¬refresh.IsKept ((traffic.run early).cache.entries.get? refresh.key) := by
        rw [mine]
        refine renewedThere.not_isKept flying (bound refresh member) ?_
        intro unknown
        exact (entry_ne _).mp
          (recognized early rest place rows refresh (same ▸ cut) found member unknown)
      simp only [same, step, found]
      exact Cache.land_not_kept _ refresh rows refused
    · intro absent present
      rcases step_brings absent present with set | ⟨place, rows, refresh, same, found, unknown⟩
      · exact .inl set
      · refine .inr ⟨place, rows, refresh, same, found, ?_⟩
        intro member
        exact recognized early rest place rows refresh (same ▸ cut) found member unknown absent

/-- A list that was just dropped is renewed in every run. -/
theorem renewed_forget (key : ListKey) (before : List (Cache.Step ρ)) {drop : Cache.Step ρ}
    (forgets : drop.Forgets key) :
    (∀ refresh ∈ (start.run before).flightsOf key,
        refresh.ticket < (start.run before).cache.nextStamp) ∧
      (((start.run before).step drop).view key).Renewed ((start.run before).flightsOf key)
        (start.run before).cache.nextStamp := by
  have stamped := stamped_run before key
  have after : ((start.run before).step drop).view key =
      ((start.run before).view key).forget := by
    rcases forgets with rfl | rfl
    · simp [step, view, flightsOf, View.forget]
    · simp [step, view, flightsOf, View.forget]
  constructor
  · intro refresh flying
    exact (stamped.issued refresh flying).ticket_lt
  · rw [after]
    refine ⟨stamped.forget, Nat.le_refl _, ?_, ?_⟩
    · intro refresh flying young
      exact absurd flying young
    · intro entry present
      cases present

/-- A list is dropped while refreshes of it are on their way. None of them stores its
rows, and only a set or a later refresh brings the list back, exactly when none that
began when there was no list lands where there is none again. -/
theorem staysGone_iff (key : ListKey) (before later : List (Cache.Step ρ)) (drop : Cache.Step ρ)
    (forgets : drop.Forgets key) :
    ((start.run before).step drop).StaysGone key ((start.run before).flightsOf key) later ↔
      ((start.run before).step drop).NoneUnrecognized key ((start.run before).flightsOf key)
        later := by
  obtain ⟨bound, renewed⟩ := renewed_forget key before forgets
  exact staysGone_iff_noneUnrecognized bound renewed later

/-- A drop is final, whatever happens later, exactly when every refresh on its way
began when there was a list. -/
theorem forall_staysGone_iff (key : ListKey) (before : List (Cache.Step ρ))
    (drop : Cache.Step ρ) (forgets : drop.Forgets key) :
    (∀ later, ((start.run before).step drop).StaysGone key ((start.run before).flightsOf key)
        later) ↔
      ∀ refresh ∈ (start.run before).flightsOf key, refresh.writtenAt ≠ none := by
  obtain ⟨bound, renewed⟩ := renewed_forget key before forgets
  have absent : ((start.run before).step drop).cache.get? key = none := by
    rcases forgets with rfl | rfl
    · simp [step, Cache.get?]
    · simp [step, Cache.get?]
  have flights : ((start.run before).step drop).flightsOf key =
      (start.run before).flightsOf key := by
    rcases forgets with rfl | rfl
    · rfl
    · rfl
  constructor
  · intro gone refresh flying unknown
    obtain ⟨place, found⟩ := List.getElem?_of_mem flying
    have recognized := (staysGone_iff_noneUnrecognized bound renewed _).mp
      (gone [.land key place (.ok [])])
    refine recognized [] [] place [] refresh rfl ?_ flying unknown absent
    rw [run_nil, flight?, flights]
    exact found
  · intro known later
    refine (staysGone_iff_noneUnrecognized bound renewed later).mpr ?_
    intro early rest place rows refresh _ _ flying unknown
    exact absurd unknown (known refresh flying)

/-- A refresh that began when there was a list lands after a removal, and nothing
comes back. -/
theorem staysGone_known :
    ((start.run [.set .requisitions [1], .refresh .requisitions]).step
      (.remove .requisitions)).StaysGone .requisitions [⟨.requisitions, some 1, 2⟩]
        [.land .requisitions 0 (.ok [2])] := by
  refine (staysGone_iff .requisitions [.set .requisitions [1], .refresh .requisitions]
    [.land .requisitions 0 (.ok [2])] (.remove .requisitions) (.inl rfl)).mpr ?_
  intro early rest place rows refresh _ _ flying unknown
  cases List.mem_singleton.mp flying
  cases unknown

/-- Not every refresh from before a removal is kept from storing its rows: one that
began when there was no list brings the list back. -/
theorem not_staysGone_unknown :
    ¬∀ (key : ListKey) (before later : List (Cache.Step Nat)) (drop : Cache.Step Nat),
      drop.Forgets key → (start.run before).cache.get? key ≠ none →
      ((start.run before).step drop).StaysGone key ((start.run before).flightsOf key) later := by
  intro alwaysGone
  have gone := alwaysGone .requisitions [.refresh .requisitions, .set .requisitions [1]]
    [.land .requisitions 0 (.ok [2])] (.remove .requisitions) (.inl rfl) nofun
  have same := (gone [] (.land .requisitions 0 (.ok [2])) [] rfl).1 0 [2]
    ⟨.requisitions, none, 1⟩ rfl rfl List.mem_cons_self
  have rows := congrArg (fun cache => cache.get? .requisitions) same
  cases rows

end Traffic

end Depot
