import Depot.Cache.Basic

/-!
Contract: what each operation of a cache does to the entry under a key.

Every operation is described by the entry that is found afterwards and by the
counter; later modules use these descriptions and open no operation. The landing
of a refresh is described by `Refresh.fill`, which acts on one entry.

Owns: the descriptions, and when the rows of a refresh are kept.
Does not own: sequences of operations (`Depot.Proofs.Cache.Traffic`).
-/

namespace Depot

variable {ρ : Type}

/-- The write stamp of what is under a key, zero when there is nothing. -/
def Entry.stamp (entry : Option (Entry ρ)) : Nat :=
  (entry.map Entry.written).getD 0

@[simp]
theorem Entry.stamp_none : Entry.stamp (none : Option (Entry ρ)) = 0 := rfl

@[simp]
theorem Entry.stamp_some (entry : Entry ρ) : Entry.stamp (some entry) = entry.written := rfl

/-- The stamp of the refresh whose rows are under a key, zero when there is none. -/
def Entry.fetchStamp (entry : Option (Entry ρ)) : Nat :=
  (entry.map Entry.fetched).getD 0

@[simp]
theorem Entry.fetchStamp_none : Entry.fetchStamp (none : Option (Entry ρ)) = 0 := rfl

@[simp]
theorem Entry.fetchStamp_some (entry : Entry ρ) :
    Entry.fetchStamp (some entry) = entry.fetched := rfl

namespace Refresh

/-- The write stamp that a refresh counts on. -/
def base (refresh : Refresh) : Nat :=
  refresh.writtenAt.getD 0

/-- Whether the rows of a refresh are kept when it lands on what is under its
key. -/
def IsKept (refresh : Refresh) : Option (Entry ρ) → Prop
  | none => refresh.writtenAt = none
  | some entry => entry.written = refresh.base ∧ entry.fetched ≤ refresh.ticket

instance (refresh : Refresh) (entry : Option (Entry ρ)) : Decidable (refresh.IsKept entry) :=
  match entry with
  | none => inferInstanceAs (Decidable (refresh.writtenAt = none))
  | some entry =>
      inferInstanceAs (Decidable (entry.written = refresh.base ∧ entry.fetched ≤ refresh.ticket))

/-- The entry after the refresh has failed. -/
def blame (refresh : Refresh) (entry : Entry ρ) : Entry ρ :=
  if some entry.written = refresh.writtenAt ∧ entry.fetched ≤ refresh.ticket then
    { entry with stale := true }
  else entry

/-- What is under the key after the refresh has landed. -/
def fill (refresh : Refresh) (entry : Option (Entry ρ)) :
    Except SourceFault (List ρ) → Option (Entry ρ)
  | .ok rows =>
      if refresh.IsKept entry then some ⟨rows, refresh.base, refresh.ticket, false⟩ else entry
  | .error _ => entry.map refresh.blame

@[simp]
theorem blame_rows (refresh : Refresh) (entry : Entry ρ) :
    (refresh.blame entry).rows = entry.rows := by
  unfold blame
  split <;> rfl

@[simp]
theorem blame_written (refresh : Refresh) (entry : Entry ρ) :
    (refresh.blame entry).written = entry.written := by
  unfold blame
  split <;> rfl

@[simp]
theorem blame_fetched (refresh : Refresh) (entry : Entry ρ) :
    (refresh.blame entry).fetched = entry.fetched := by
  unfold blame
  split <;> rfl

/-- A failure never makes an entry fresh. -/
theorem blame_stale_of_stale (refresh : Refresh) (entry : Entry ρ) (stale : entry.stale = true) :
    (refresh.blame entry).stale = true := by
  unfold blame
  split
  · rfl
  · exact stale

/-- Rows are kept only on top of the write stamp that the refresh counts on. -/
theorem IsKept.base_eq {refresh : Refresh} {entry : Option (Entry ρ)}
    (kept : refresh.IsKept entry) : refresh.base = Entry.stamp entry := by
  cases entry with
  | none => simp [base, show refresh.writtenAt = none from kept]
  | some entry => exact kept.1.symm

/-- A refresh whose failure is taken notice of would have had its rows kept. -/
theorem isKept_of_blamed {refresh : Refresh} {entry : Entry ρ}
    (written : some entry.written = refresh.writtenAt) (order : entry.fetched ≤ refresh.ticket) :
    refresh.IsKept (some entry) :=
  ⟨by simp [base, ← written], order⟩

/-- No landing changes the write stamp. -/
@[simp]
theorem stamp_fill (refresh : Refresh) (entry : Option (Entry ρ))
    (reply : Except SourceFault (List ρ)) :
    Entry.stamp (refresh.fill entry reply) = Entry.stamp entry := by
  cases reply with
  | error fault => cases entry <;> simp [fill]
  | ok rows =>
      by_cases kept : refresh.IsKept entry
      · simp [fill, kept, kept.base_eq]
      · simp [fill, kept]

/-- After a landing the entry holds the same refresh's rows as before, or the rows of
this one. -/
theorem fetchStamp_fill (refresh : Refresh) (entry : Option (Entry ρ))
    (reply : Except SourceFault (List ρ)) :
    Entry.fetchStamp (refresh.fill entry reply) = Entry.fetchStamp entry ∨
      Entry.fetchStamp (refresh.fill entry reply) = refresh.ticket := by
  cases reply with
  | error fault => cases entry <;> simp [fill]
  | ok rows =>
      by_cases kept : refresh.IsKept entry
      · simp [fill, kept]
      · simp [fill, kept]

/-- No landing drops an entry. -/
theorem eq_none_of_fill_eq_none {refresh : Refresh} {entry : Option (Entry ρ)}
    {reply : Except SourceFault (List ρ)} (absent : refresh.fill entry reply = none) :
    entry = none := by
  cases reply with
  | error fault => simpa [fill] using absent
  | ok rows =>
      by_cases kept : refresh.IsKept entry
      · simp [fill, kept] at absent
      · simpa [fill, kept] using absent

end Refresh

namespace Cache

variable (cache : Cache ρ) (key other : ListKey)

/-- The rows that are found fresh are those of a list that is not stale. -/
theorem fresh?_eq_some {rows : List ρ} :
    cache.fresh? key = some rows ↔
      cache.get? key = some rows ∧ cache.isStale? key = some false := by
  unfold fresh? get? isStale?
  cases cache.entries.get? key with
  | none => simp
  | some entry =>
      cases stale : entry.stale with
      | true => simp [Option.filter, stale]
      | false => simp [Option.filter, stale]

theorem fresh?_eq_none : cache.fresh? key = none ↔ cache.isStale? key ≠ some false := by
  unfold fresh? isStale?
  cases cache.entries.get? key with
  | none => simp
  | some entry =>
      cases stale : entry.stale with
      | true => simp [stale]
      | false => simp [stale]

/-- A list that is not stale is found. -/
theorem exists_fresh (fresh : cache.isStale? key = some false) :
    ∃ rows, cache.fresh? key = some rows := by
  rw [← Option.ne_none_iff_exists']
  intro missing
  exact (cache.fresh?_eq_none key).mp missing fresh

@[simp]
theorem entries_set (rows : List ρ) :
    (cache.set key rows).entries.get? other =
      if other = key then some ⟨rows, cache.nextStamp, 0, false⟩
      else cache.entries.get? other := by
  simp [set, publish, putEntry, drawn]

@[simp]
theorem nextStamp_set (rows : List ρ) :
    (cache.set key rows).nextStamp = cache.nextStamp + 1 := rfl

theorem update_absent (change : List ρ → List ρ) (absent : cache.entries.get? key = none) :
    cache.update key change = (cache, none) := by
  simp [update, absent]

theorem update_present (change : List ρ → List ρ) {entry : Entry ρ}
    (present : cache.entries.get? key = some entry) :
    cache.update key change =
      ((cache.drawn.putEntry key
          { entry with rows := change entry.rows, written := cache.nextStamp }).publish key
            .updated,
        some entry.rows) := by
  simp [update, present]

theorem entries_update_other (change : List ρ → List ρ) (differs : other ≠ key) :
    (cache.update key change).1.entries.get? other = cache.entries.get? other := by
  cases present : cache.entries.get? key with
  | none => rw [cache.update_absent key change present]
  | some entry =>
      rw [cache.update_present key change present]
      simp [publish, putEntry, drawn, differs]

theorem nextStamp_le_update (change : List ρ → List ρ) :
    cache.nextStamp ≤ (cache.update key change).1.nextStamp := by
  cases present : cache.entries.get? key with
  | none => simp [cache.update_absent key change present]
  | some entry =>
      rw [cache.update_present key change present]
      exact Nat.le_succ _

@[simp]
theorem entries_begin : (cache.begin key).1.entries = cache.entries := rfl

@[simp]
theorem nextStamp_begin : (cache.begin key).1.nextStamp = cache.nextStamp + 1 := rfl

@[simp]
theorem key_begin : (cache.begin key).2.key = key := rfl

@[simp]
theorem entries_markStale :
    (cache.markStale key).entries.get? other =
      if other = key then (cache.entries.get? key).map fun entry => { entry with stale := true }
      else cache.entries.get? other := by
  unfold markStale
  cases present : cache.entries.get? key with
  | none =>
      by_cases same : other = key
      · simp [same, present]
      · simp [same]
  | some entry => simp [publish, putEntry]

@[simp]
theorem nextStamp_markStale : (cache.markStale key).nextStamp = cache.nextStamp := by
  unfold markStale
  split <;> rfl

@[simp]
theorem key_beginInvalidate : (cache.beginInvalidate key).2.key = key := rfl

@[simp]
theorem entries_remove :
    (cache.remove key).1.entries.get? other =
      if other = key then none else cache.entries.get? other := by
  unfold remove
  cases present : cache.entries.get? key with
  | none =>
      by_cases same : other = key
      · simp [same, present]
      · simp [same]
  | some entry => simp [publish]

@[simp]
theorem nextStamp_remove : (cache.remove key).1.nextStamp = cache.nextStamp := by
  unfold remove
  split <;> rfl

@[simp]
theorem entries_clear : cache.clear.entries.get? key = none := rfl

@[simp]
theorem nextStamp_clear : cache.clear.nextStamp = cache.nextStamp := rfl

section Landing

variable (refresh : Refresh)

/-- The rows of a landing refresh replace what was there. -/
theorem land_kept (rows : List ρ)
    (kept : refresh.IsKept (cache.entries.get? refresh.key)) :
    (cache.land refresh (.ok rows)).1 = cache.store refresh rows := by
  cases present : cache.entries.get? refresh.key with
  | none =>
      have absent : refresh.writtenAt = none := by simpa [present, Refresh.IsKept] using kept
      simp [land, present, absent]
  | some entry =>
      rw [present] at kept
      have written : entry.written = refresh.writtenAt.getD 0 := kept.1
      have order : ¬refresh.ticket < entry.fetched := Nat.not_lt.mpr kept.2
      simp [land, present, written, order]

/-- The rows of a landing refresh are dropped and nothing changes. -/
theorem land_not_kept (rows : List ρ)
    (refused : ¬refresh.IsKept (cache.entries.get? refresh.key)) :
    (cache.land refresh (.ok rows)).1 = cache := by
  cases present : cache.entries.get? refresh.key with
  | none =>
      have found : refresh.writtenAt ≠ none := by simpa [present, Refresh.IsKept] using refused
      simp [land, present, Option.isSome_iff_ne_none, found]
  | some entry =>
      rw [present] at refused
      by_cases written : entry.written = refresh.writtenAt.getD 0
      · have order : refresh.ticket < entry.fetched :=
          Nat.lt_of_not_le fun least => refused ⟨written, least⟩
        simp [land, present, written, order]
      · simp [land, present, written]

/-- A failure of which no notice is taken changes nothing. -/
theorem markFailed_not_kept (refused : ¬refresh.IsKept (cache.entries.get? refresh.key)) :
    cache.markFailed refresh = cache := by
  unfold markFailed
  cases present : cache.entries.get? refresh.key with
  | none => rfl
  | some entry =>
      rw [present] at refused
      exact if_neg fun blamed => refused (Refresh.isKept_of_blamed blamed.1 blamed.2)

@[simp]
theorem entries_land (reply : Except SourceFault (List ρ)) :
    (cache.land refresh reply).1.entries.get? other =
      if other = refresh.key then refresh.fill (cache.entries.get? refresh.key) reply
      else cache.entries.get? other := by
  cases reply with
  | ok rows =>
      by_cases kept : refresh.IsKept (cache.entries.get? refresh.key)
      · rw [cache.land_kept refresh rows kept]
        simp [store, publish, putEntry, Refresh.fill, kept, Refresh.base]
      · rw [cache.land_not_kept refresh rows kept]
        by_cases same : other = refresh.key
        · simp [same, Refresh.fill, kept]
        · simp [same]
  | error fault =>
      change (cache.markFailed refresh).entries.get? other = _
      unfold markFailed
      cases present : cache.entries.get? refresh.key with
      | none =>
          by_cases same : other = refresh.key
          · simp [same, present, Refresh.fill]
          · simp [same]
      | some entry =>
          by_cases blamed :
              some entry.written = refresh.writtenAt ∧ entry.fetched ≤ refresh.ticket
          · simp [blamed, putEntry, Refresh.fill, Refresh.blame]
          · by_cases same : other = refresh.key
            · simp [blamed, same, present, Refresh.fill, Refresh.blame]
            · simp [blamed, same]

@[simp]
theorem nextStamp_land (reply : Except SourceFault (List ρ)) :
    (cache.land refresh reply).1.nextStamp = cache.nextStamp := by
  cases reply with
  | ok rows =>
      by_cases kept : refresh.IsKept (cache.entries.get? refresh.key)
      · rw [cache.land_kept refresh rows kept]
        rfl
      · rw [cache.land_not_kept refresh rows kept]
  | error fault =>
      change (cache.markFailed refresh).nextStamp = _
      unfold markFailed
      split
      · rfl
      · split <;> rfl

end Landing

end Cache

end Depot
