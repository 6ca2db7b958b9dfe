import Depot.Proofs.Cache.Stamps

/-!
Contract: how a list comes to hold what the source has.

An outlook is one list, the refreshes of it that are on their way with the rows that
each brings, and what the source holds. It is covered from a stamp on when every
refresh with at least this stamp brings the source's rows, and one has landed or is
on its way. An invalidation covers the list from its own stamp on, whatever was
before; refreshes that begin and land keep it covered.

Owns: outlooks, and how they are covered.
Does not own: whose refreshes they are (`Depot.Proofs.Edit.Convergence`).
-/

namespace Depot

variable {ρ : Type}

/-- The entry under a key after it was marked stale. -/
def Entry.marked (entry : Option (Entry ρ)) : Option (Entry ρ) :=
  entry.map fun entry => { entry with stale := true }

@[simp]
theorem Entry.stamp_marked (entry : Option (Entry ρ)) :
    Entry.stamp (Entry.marked entry) = Entry.stamp entry := by
  cases entry <;> rfl

@[simp]
theorem Entry.fetchStamp_marked (entry : Option (Entry ρ)) :
    Entry.fetchStamp (Entry.marked entry) = Entry.fetchStamp entry := by
  cases entry <;> rfl

/-- One list, and what is going to become of it. -/
structure Outlook (ρ : Type) where
  entry : Option (Entry ρ)
  /-- The stamp that is drawn next. -/
  clock : Nat
  /-- The refreshes on their way, and the rows that they bring. -/
  arrivals : List (Refresh × List ρ)
  /-- What the source holds. -/
  rows : List ρ

namespace Outlook

def wrote (outlook : Outlook ρ) (changed : Entry ρ) : Outlook ρ :=
  { outlook with entry := some changed, clock := outlook.clock + 1 }

def begin (outlook : Outlook ρ) (key : ListKey) : Outlook ρ :=
  { outlook with
    clock := outlook.clock + 1
    arrivals := outlook.arrivals ++
      [(⟨key, outlook.entry.map Entry.written, outlook.clock⟩, outlook.rows)] }

/-- The outlook after an invalidation has begun. -/
def invalidate (outlook : Outlook ρ) (key : ListKey) : Outlook ρ :=
  ({ outlook with entry := Entry.marked outlook.entry } : Outlook ρ).begin key

/-- The outlook after an arrival has come and others are left. -/
def land (outlook : Outlook ρ) (arrival : Refresh × List ρ) (left : List (Refresh × List ρ)) :
    Outlook ρ :=
  { outlook with
    entry := arrival.1.fill outlook.entry (.ok arrival.2)
    arrivals := left }

@[simp]
theorem stamp_land (outlook : Outlook ρ) (arrival : Refresh × List ρ)
    (left : List (Refresh × List ρ)) :
    Entry.stamp (outlook.land arrival left).entry = Entry.stamp outlook.entry :=
  arrival.1.stamp_fill outlook.entry (.ok arrival.2)

/-- An item of a list is the one in the middle or one of the others. -/
theorem mem_split_iff {α : Type} {whole first last : List α} {item other : α}
    (split : whole = first ++ item :: last) :
    other ∈ whole ↔ other = item ∨ other ∈ first ++ last := by
  subst split
  simp only [List.mem_append, List.mem_cons]
  exact or_left_comm

/-- What may happen under a key while no write waits. -/
inductive Turn (key : ListKey) : Outlook ρ → Outlook ρ → Prop
  /-- Stamps are drawn for other keys. -/
  | pass (outlook : Outlook ρ) (clock : Nat) (later : outlook.clock ≤ clock) :
      Turn key outlook { outlook with clock }
  | begin (outlook : Outlook ρ) : Turn key outlook (outlook.begin key)
  | invalidate (outlook : Outlook ρ) : Turn key outlook (outlook.invalidate key)
  | land (outlook : Outlook ρ) (arrival : Refresh × List ρ)
      (first last : List (Refresh × List ρ))
      (waits : outlook.arrivals = first ++ arrival :: last) :
      Turn key outlook (outlook.land arrival (first ++ last))

/-- The stamps are in order, and every refresh on its way fits. -/
structure Sound (outlook : Outlook ρ) : Prop where
  stamp_lt : Entry.stamp outlook.entry < outlook.clock
  fetchStamp_lt : Entry.fetchStamp outlook.entry < outlook.clock
  fits : ∀ arrival ∈ outlook.arrivals, arrival.1.Fits outlook.entry outlook.clock

namespace Sound

variable {outlook : Outlook ρ}

theorem wrote (sound : outlook.Sound) (changed : Entry ρ)
    (drawn : changed.written = outlook.clock) (fetched : changed.fetched ≤ outlook.clock) :
    (outlook.wrote changed).Sound where
  stamp_lt := by
    change changed.written < outlook.clock + 1
    omega
  fetchStamp_lt := Nat.lt_succ_of_le fetched
  fits := by
    intro arrival member
    exact (sound.fits arrival member).written drawn

theorem begin (sound : outlook.Sound) (key : ListKey) : (outlook.begin key).Sound where
  stamp_lt := Nat.lt_succ_of_lt sound.stamp_lt
  fetchStamp_lt := Nat.lt_succ_of_lt sound.fetchStamp_lt
  fits := by
    intro arrival member
    rcases List.mem_append.mp member with before | new
    · exact (sound.fits arrival before).unwritten rfl id (Nat.le_succ _)
    · rw [List.mem_singleton.mp new]
      exact .of_begin key sound.stamp_lt

theorem invalidate (sound : outlook.Sound) (key : ListKey) : (outlook.invalidate key).Sound := by
  refine Sound.begin ⟨?_, ?_, ?_⟩ key
  · simpa using sound.stamp_lt
  · simpa using sound.fetchStamp_lt
  · intro arrival member
    refine (sound.fits arrival member).unwritten (Entry.stamp_marked _) ?_ (Nat.le_refl _)
    intro absent
    exact Option.map_eq_none_iff.mp absent

theorem turn {key : ListKey} {before after : Outlook ρ} (turn : Turn key before after)
    (sound : before.Sound) : after.Sound := by
  cases turn with
  | pass clock later =>
      refine ⟨Nat.lt_of_lt_of_le sound.stamp_lt later,
        Nat.lt_of_lt_of_le sound.fetchStamp_lt later, ?_⟩
      intro arrival member
      exact (sound.fits arrival member).unwritten rfl id later
  | begin => exact sound.begin key
  | invalidate => exact sound.invalidate key
  | land arrival first last waits =>
      have fits := sound.fits arrival ((mem_split_iff waits).mpr (.inl rfl))
      refine ⟨?_, ?_, ?_⟩
      · rw [stamp_land]
        exact sound.stamp_lt
      · show Entry.fetchStamp (arrival.1.fill before.entry (.ok arrival.2)) < before.clock
        rcases arrival.1.fetchStamp_fill before.entry (.ok arrival.2) with same | own
        · rw [same]
          exact sound.fetchStamp_lt
        · rw [own]
          exact fits.ticket_lt
      · intro other member
        refine (sound.fits other ((mem_split_iff waits).mpr (.inr member))).unwritten
          (arrival.1.stamp_fill _ (.ok arrival.2)) ?_ (Nat.le_refl _)
        exact Refresh.eq_none_of_fill_eq_none

end Sound

/-- Every refresh with at least this stamp brings the source's rows, and one has
landed or is on its way. A stale list waits for rows that it will take. -/
structure Covered (since : Nat) (outlook : Outlook ρ) : Prop where
  stamp_lt : Entry.stamp outlook.entry < since
  seen : ∀ arrival ∈ outlook.arrivals, since ≤ arrival.1.ticket → arrival.2 = outlook.rows
  held : ∀ entry, outlook.entry = some entry → since ≤ entry.fetched → entry.rows = outlook.rows
  coming : (∃ arrival ∈ outlook.arrivals, since ≤ arrival.1.ticket) ∨
    since ≤ Entry.fetchStamp outlook.entry
  stale : ∀ entry, outlook.entry = some entry → entry.stale = true →
    ∃ arrival ∈ outlook.arrivals,
      entry.written < arrival.1.ticket ∧ entry.fetched < arrival.1.ticket

/-- A list is covered from the beginning of an invalidation on. -/
theorem Sound.covered_invalidate {outlook : Outlook ρ} (sound : outlook.Sound) (key : ListKey) :
    (outlook.invalidate key).Covered outlook.clock := by
  have last : (⟨key, (Entry.marked outlook.entry).map Entry.written, outlook.clock⟩,
      outlook.rows) ∈ (outlook.invalidate key).arrivals :=
    List.mem_append_right _ List.mem_cons_self
  have marked : ∀ entry, (outlook.invalidate key).entry = some entry →
      entry.written < outlook.clock ∧ entry.fetched < outlook.clock := by
    intro entry present
    obtain ⟨previous, presentBefore, rfl⟩ := Option.map_eq_some_iff.mp present
    have stampLt := sound.stamp_lt
    have fetchStampLt := sound.fetchStamp_lt
    rw [presentBefore] at stampLt fetchStampLt
    exact ⟨stampLt, fetchStampLt⟩
  refine ⟨?_, ?_, ?_, .inl ⟨_, last, Nat.le_refl _⟩, ?_⟩
  · change Entry.stamp (Entry.marked outlook.entry) < outlook.clock
    rw [Entry.stamp_marked]
    exact sound.stamp_lt
  · intro arrival member newer
    rcases List.mem_append.mp member with before | new
    · exact absurd (sound.fits arrival before).ticket_lt (Nat.not_lt.mpr newer)
    · rw [List.mem_singleton.mp new]
      rfl
  · intro entry present newer
    exact absurd (marked entry present).2 (Nat.not_lt.mpr newer)
  · intro entry present _
    exact ⟨_, last, marked entry present⟩

namespace Covered

variable {since : Nat} {outlook : Outlook ρ}

theorem begin (covered : outlook.Covered since) (key : ListKey) :
    (outlook.begin key).Covered since where
  stamp_lt := covered.stamp_lt
  seen := by
    intro arrival member newer
    rcases List.mem_append.mp member with before | new
    · exact covered.seen arrival before newer
    · rw [List.mem_singleton.mp new]
      rfl
  held := covered.held
  coming := by
    rcases covered.coming with ⟨arrival, member, newer⟩ | newer
    · exact .inl ⟨arrival, List.mem_append_left _ member, newer⟩
    · exact .inr newer
  stale := by
    intro entry present stale
    obtain ⟨arrival, member, newer⟩ := covered.stale entry present stale
    exact ⟨arrival, List.mem_append_left _ member, newer⟩

theorem invalidate (covered : outlook.Covered since) (sound : outlook.Sound) (key : ListKey) :
    (outlook.invalidate key).Covered since := by
  have now := sound.covered_invalidate key
  refine ⟨?_, ?_, ?_, ?_, now.stale⟩
  · change Entry.stamp (Entry.marked outlook.entry) < since
    rw [Entry.stamp_marked]
    exact covered.stamp_lt
  · intro arrival member newer
    rcases List.mem_append.mp member with before | new
    · exact covered.seen arrival before newer
    · rw [List.mem_singleton.mp new]
      rfl
  · intro entry present newer
    obtain ⟨previous, presentBefore, rfl⟩ := Option.map_eq_some_iff.mp present
    exact covered.held previous presentBefore newer
  · rcases covered.coming with ⟨arrival, member, newer⟩ | newer
    · exact .inl ⟨arrival, List.mem_append_left _ member, newer⟩
    · refine .inr ?_
      change since ≤ Entry.fetchStamp (Entry.marked outlook.entry)
      rw [Entry.fetchStamp_marked]
      exact newer

section Landing

variable {arrival : Refresh × List ρ} {first last : List (Refresh × List ρ)}

theorem land_kept (covered : outlook.Covered since) (sound : outlook.Sound)
    (waits : outlook.arrivals = first ++ arrival :: last)
    (kept : arrival.1.IsKept outlook.entry) :
    (outlook.land arrival (first ++ last)).Covered since := by
  have waiting : arrival ∈ outlook.arrivals := (mem_split_iff waits).mpr (.inl rfl)
  obtain ⟨-, order⟩ := (sound.fits arrival waiting).isKept_iff.mp kept
  have filled : (outlook.land arrival (first ++ last)).entry =
      some ⟨arrival.2, arrival.1.base, arrival.1.ticket, false⟩ := if_pos kept
  refine ⟨?_, ?_, ?_, ?_, ?_⟩
  · rw [stamp_land]
    exact covered.stamp_lt
  · intro other member newer
    exact covered.seen other ((mem_split_iff waits).mpr (.inr member)) newer
  · intro entry present newer
    rw [filled] at present
    cases present
    exact covered.seen arrival waiting newer
  · -- If this arrival is too old to count, the one that is awaited is another.
    by_cases own : since ≤ arrival.1.ticket
    · right
      rw [filled]
      exact own
    · left
      rcases covered.coming with ⟨other, member, newer⟩ | newer
      · rcases (mem_split_iff waits).mp member with rfl | stays
        · exact absurd newer own
        · exact ⟨other, stays, newer⟩
      · exact absurd (Nat.le_trans newer order) own
  · intro entry present stale
    rw [filled] at present
    cases present
    contradiction

theorem land_refused (covered : outlook.Covered since) (sound : outlook.Sound)
    (waits : outlook.arrivals = first ++ arrival :: last)
    (refused : ¬arrival.1.IsKept outlook.entry) :
    (outlook.land arrival (first ++ last)).Covered since := by
  have waiting : arrival ∈ outlook.arrivals := (mem_split_iff waits).mpr (.inl rfl)
  have outdated : Entry.stamp outlook.entry < arrival.1.ticket →
      arrival.1.ticket < Entry.fetchStamp outlook.entry := by
    intro unwritten
    refine Nat.lt_of_not_le fun order => refused ?_
    exact (sound.fits arrival waiting).isKept_iff.mpr ⟨unwritten, order⟩
  have same : outlook.land arrival (first ++ last) =
      { outlook with arrivals := first ++ last } := by
    rw [land, Refresh.fill, if_neg refused]
  rw [same]
  refine ⟨covered.stamp_lt, ?_, covered.held, ?_, ?_⟩
  · intro other member newer
    exact covered.seen other ((mem_split_iff waits).mpr (.inr member)) newer
  · -- If the awaited arrival itself is dropped, a later one has landed before it.
    rcases covered.coming with ⟨other, member, newer⟩ | newer
    · rcases (mem_split_iff waits).mp member with rfl | stays
      · have unwritten := Nat.lt_of_lt_of_le covered.stamp_lt newer
        exact .inr (Nat.le_of_lt (Nat.lt_of_le_of_lt newer (outdated unwritten)))
      · exact .inl ⟨other, stays, newer⟩
    · exact .inr newer
  · intro entry present stale
    obtain ⟨other, member, written, fetched⟩ := covered.stale entry present stale
    rcases (mem_split_iff waits).mp member with rfl | stays
    · rw [present] at outdated
      exact absurd (outdated written) (Nat.lt_asymm fetched)
    · exact ⟨other, stays, written, fetched⟩

end Landing

theorem turn {key : ListKey} {before after : Outlook ρ} (turn : Turn key before after)
    (sound : before.Sound) (covered : before.Covered since) : after.Covered since := by
  cases turn with
  | pass clock later => exact { covered with }
  | begin => exact covered.begin key
  | invalidate => exact covered.invalidate sound key
  | land arrival first last waits =>
      by_cases kept : arrival.1.IsKept before.entry
      · exact covered.land_kept sound waits kept
      · exact covered.land_refused sound waits kept

/-- When nothing is on its way any more, the list is what the source holds. -/
theorem settled (covered : outlook.Covered since) (ended : outlook.arrivals = []) :
    outlook.entry.map Entry.rows = some outlook.rows ∧
      outlook.entry.map Entry.stale = some false := by
  have landed : since ≤ Entry.fetchStamp outlook.entry := by
    rcases covered.coming with ⟨arrival, member, -⟩ | newer
    · rw [ended] at member
      contradiction
    · exact newer
  cases present : outlook.entry with
  | none =>
      rw [present] at landed
      have positive := Nat.zero_lt_of_lt covered.stamp_lt
      exact absurd landed (Nat.not_le.mpr positive)
  | some entry =>
      rw [present] at landed
      constructor
      · exact congrArg some (covered.held entry present landed)
      · cases stale : entry.stale with
        | false => simp [stale]
        | true =>
            obtain ⟨arrival, member, -⟩ := covered.stale entry present stale
            rw [ended] at member
            contradiction

end Covered

end Outlook

end Depot
