import Depot.Proofs.Cache.Local
import Mathlib.Data.List.Forall2

/-!
Contract: the lists under different keys do not touch one another.

All keys draw stamps from one counter, so a run without the calls on other keys draws
other stamps. Stamps of the two runs correspond when they compare alike, and zero, which
no call draws, corresponds to zero. Every step of one run is matched in the other by the
same step or passes there, and the correspondence goes on.

Owns: `Traffic.alone`, the correspondence, and the two runs.
Does not own: what a single step does to other keys (`Depot.Proofs.Cache.Local`).
-/

namespace Depot

variable {ρ : Type}

/-! ### Stamps that correspond -/

/-- Stamps of two runs that correspond, with the stamps that the runs draw next. -/
structure Parallel (same : Nat → Nat → Prop) (clock other : Nat) : Prop where
  zero : same 0 0
  lt_iff : ∀ {left right left' right'}, same left left' → same right right' →
    (left < right ↔ left' < right')
  below : ∀ {left left'}, same left left' → left < clock ∧ left' < other

/-- The stamps that two runs draw next correspond from then on. -/
def Drawn (same : Nat → Nat → Prop) (clock other : Nat) (left left' : Nat) : Prop :=
  same left left' ∨ left = clock ∧ left' = other

theorem Drawn.old {same : Nat → Nat → Prop} {clock other left left' : Nat}
    (old : same left left') : Drawn same clock other left left' :=
  .inl old

theorem Drawn.new (same : Nat → Nat → Prop) (clock other : Nat) :
    Drawn same clock other clock other :=
  .inr ⟨rfl, rfl⟩

namespace Parallel

variable {same : Nat → Nat → Prop} {clock other left right left' right' : Nat}

theorem le_iff (parallel : Parallel same clock other) (first : same left left')
    (second : same right right') : left ≤ right ↔ left' ≤ right' := by
  have reversed := parallel.lt_iff second first
  omega

theorem eq_iff (parallel : Parallel same clock other) (first : same left left')
    (second : same right right') : left = right ↔ left' = right' := by
  have forward := parallel.le_iff first second
  have backward := parallel.le_iff second first
  omega

theorem later (parallel : Parallel same clock other) {clock' other' : Nat}
    (least : clock ≤ clock') (leastOther : other ≤ other') : Parallel same clock' other' where
  zero := parallel.zero
  lt_iff := parallel.lt_iff
  below := by
    intro stamp stamp' corresponds
    have below := parallel.below corresponds
    omega

theorem drawn (parallel : Parallel same clock other) :
    Parallel (Drawn same clock other) (clock + 1) (other + 1) where
  zero := .old parallel.zero
  lt_iff := by
    rintro left right left' right' (first | ⟨rfl, rfl⟩) (second | ⟨rfl, rfl⟩)
    · exact parallel.lt_iff first second
    · have below := parallel.below first
      omega
    · have below := parallel.below second
      omega
    · omega
  below := by
    rintro stamp stamp' (old | ⟨rfl, rfl⟩)
    · have below := parallel.below old
      omega
    · omega

end Parallel

/-! ### Values that are there on both sides or on neither -/

section

variable {α β : Type} {related larger : α → β → Prop} {left : Option α} {right : Option β}

theorem rel_cases (values : Option.Rel related left right) :
    (left = none ∧ right = none) ∨
      ∃ first second, left = some first ∧ right = some second ∧ related first second := by
  cases values with
  | none => exact .inl ⟨rfl, rfl⟩
  | some value => exact .inr ⟨_, _, rfl, rfl, value⟩

theorem rel_mono (values : Option.Rel related left right)
    (implies : ∀ first second, related first second → larger first second) :
    Option.Rel larger left right := by
  cases values with
  | none => exact .none
  | some value => exact .some (implies _ _ value)

end

/-! ### Entries and refreshes that differ in their stamps only -/

/-- Entries that are equal up to corresponding stamps. -/
structure Entry.Alike (same : Nat → Nat → Prop) (left right : Entry ρ) : Prop where
  rows : left.rows = right.rows
  written : same left.written right.written
  fetched : same left.fetched right.fetched
  stale : left.stale = right.stale

/-- Refreshes that are equal up to corresponding stamps. -/
structure Refresh.Alike (same : Nat → Nat → Prop) (left right : Refresh) : Prop where
  key : left.key = right.key
  writtenAt : Option.Rel same left.writtenAt right.writtenAt
  ticket : same left.ticket right.ticket

section

variable {same : Nat → Nat → Prop} {clock other : Nat} {left right : Entry ρ}
  {leftRefresh rightRefresh : Refresh} {leftEntry rightEntry : Option (Entry ρ)}

theorem Entry.Alike.drawn (alike : Entry.Alike same left right) (clock other : Nat) :
    Entry.Alike (Drawn same clock other) left right :=
  ⟨alike.rows, .old alike.written, .old alike.fetched, alike.stale⟩

theorem Refresh.Alike.drawn (alike : Refresh.Alike same leftRefresh rightRefresh)
    (clock other : Nat) : Refresh.Alike (Drawn same clock other) leftRefresh rightRefresh :=
  ⟨alike.key, rel_mono alike.writtenAt fun _ _ => .old, .old alike.ticket⟩

theorem Entry.Alike.map_rows (entries : Option.Rel (Entry.Alike same) leftEntry rightEntry) :
    leftEntry.map Entry.rows = rightEntry.map Entry.rows := by
  cases entries with
  | none => rfl
  | some alike => exact congrArg some alike.rows

theorem Entry.Alike.isSome_eq (entries : Option.Rel (Entry.Alike same) leftEntry rightEntry) :
    leftEntry.isSome = rightEntry.isSome := by
  cases entries with
  | none => rfl
  | some alike => rfl

namespace Refresh.Alike

theorem base (parallel : Parallel same clock other)
    (alike : Alike same leftRefresh rightRefresh) : same leftRefresh.base rightRefresh.base := by
  unfold Refresh.base
  rcases rel_cases alike.writtenAt with ⟨left, right⟩ | ⟨_, _, left, right, stamps⟩
  · rw [left, right]
    exact parallel.zero
  · rw [left, right]
    exact stamps

theorem eq_iff (parallel : Parallel same clock other)
    {leftOther rightOther : Refresh} (alike : Alike same leftRefresh rightRefresh)
    (others : Alike same leftOther rightOther) :
    leftRefresh = leftOther ↔ rightRefresh = rightOther := by
  obtain ⟨leftKey, leftWritten, leftTicket⟩ := leftRefresh
  obtain ⟨rightKey, rightWritten, rightTicket⟩ := rightRefresh
  obtain ⟨leftKey', leftWritten', leftTicket'⟩ := leftOther
  obtain ⟨rightKey', rightWritten', rightTicket'⟩ := rightOther
  obtain ⟨rfl, written, ticket⟩ := alike
  obtain ⟨rfl, written', ticket'⟩ := others
  have tickets := parallel.eq_iff ticket ticket'
  have stamps : leftWritten = leftWritten' ↔ rightWritten = rightWritten' := by
    cases written with
    | none => cases written' <;> simp
    | some first =>
        cases written' with
        | none => simp
        | some second => simpa using parallel.eq_iff first second
  simp [tickets, stamps]

theorem isKept_iff (parallel : Parallel same clock other)
    (alike : Alike same leftRefresh rightRefresh)
    (entries : Option.Rel (Entry.Alike same) leftEntry rightEntry) :
    leftRefresh.IsKept leftEntry ↔ rightRefresh.IsKept rightEntry := by
  cases entries with
  | none =>
      change leftRefresh.writtenAt = none ↔ rightRefresh.writtenAt = none
      rcases rel_cases alike.writtenAt with ⟨left, right⟩ | ⟨_, _, left, right, -⟩
      · rw [left, right]
      · simp [left, right]
  | some entry =>
      have written := parallel.eq_iff entry.written (alike.base parallel)
      have order := parallel.le_iff entry.fetched alike.ticket
      exact and_congr written order

theorem blame (parallel : Parallel same clock other)
    (alike : Alike same leftRefresh rightRefresh) (entry : Entry.Alike same left right) :
    Entry.Alike same (leftRefresh.blame left) (rightRefresh.blame right) := by
  have written : some left.written = leftRefresh.writtenAt ↔
      some right.written = rightRefresh.writtenAt := by
    rcases rel_cases alike.writtenAt with ⟨left, right⟩ | ⟨_, _, left, right, stamps⟩
    · simp [left, right]
    · simpa [left, right] using parallel.eq_iff entry.written stamps
  have order := parallel.le_iff entry.fetched alike.ticket
  simp only [Refresh.blame, written, order]
  split
  · exact ⟨entry.rows, entry.written, entry.fetched, rfl⟩
  · exact entry

theorem fill (parallel : Parallel same clock other)
    (alike : Alike same leftRefresh rightRefresh)
    (entries : Option.Rel (Entry.Alike same) leftEntry rightEntry)
    (reply : Except SourceFault (List ρ)) :
    Option.Rel (Entry.Alike same) (leftRefresh.fill leftEntry reply)
      (rightRefresh.fill rightEntry reply) := by
  cases reply with
  | error fault =>
      cases entries with
      | none => exact .none
      | some entry => exact .some (alike.blame parallel entry)
  | ok rows =>
      simp only [Refresh.fill, alike.isKept_iff parallel entries]
      split
      · exact .some ⟨rfl, alike.base parallel, alike.ticket, rfl⟩
      · exact entries

theorem result_eq (parallel : Parallel same clock other)
    (alike : Alike same leftRefresh rightRefresh)
    (entries : Option.Rel (Entry.Alike same) leftEntry rightEntry)
    (reply : Except SourceFault (List ρ)) :
    leftRefresh.result leftEntry reply = rightRefresh.result rightEntry reply := by
  cases reply with
  | error fault => rfl
  | ok rows =>
      simp only [Refresh.result, alike.isKept_iff parallel entries, Entry.Alike.map_rows entries]

theorem changes_eq (parallel : Parallel same clock other)
    (alike : Alike same leftRefresh rightRefresh)
    (entries : Option.Rel (Entry.Alike same) leftEntry rightEntry)
    (reply : Except SourceFault (List ρ)) :
    leftRefresh.changes leftEntry reply = rightRefresh.changes rightEntry reply := by
  cases reply with
  | error fault => rfl
  | ok rows => simp only [Refresh.changes, alike.isKept_iff parallel entries]

/-- Of refreshes that are alike, those that are dropped are the same. -/
theorem erase (parallel : Parallel same clock other)
    (alike : Alike same leftRefresh rightRefresh) {lefts rights : List Refresh}
    (flights : List.Forall₂ (Alike same) lefts rights) :
    List.Forall₂ (Alike same) (lefts.erase leftRefresh) (rights.erase rightRefresh) := by
  induction flights with
  | nil => exact .nil
  | cons first rest inductionHypothesis =>
      have same := first.eq_iff parallel alike
      simp only [List.erase_cons, beq_iff_eq, same]
      split
      · exact rest
      · exact .cons first inductionHypothesis

theorem getElem? {lefts rights : List Refresh}
    (flights : List.Forall₂ (Alike same) lefts rights) (place : Nat) :
    Option.Rel (Alike same) lefts[place]? rights[place]? := by
  induction flights generalizing place with
  | nil => exact .none
  | cons first rest inductionHypothesis =>
      cases place with
      | zero => exact .some first
      | succ place => simpa using inductionHypothesis place

end Refresh.Alike

end

/-! ### Views that differ in their stamps only -/

/-- Views that are equal up to corresponding stamps. -/
structure View.Alike (same : Nat → Nat → Prop) (left right : View ρ) : Prop where
  stamps : Parallel same left.clock right.clock
  entry : Option.Rel (Entry.Alike same) left.entry right.entry
  flights : List.Forall₂ (Refresh.Alike same) left.flights right.flights

namespace View.Alike

variable {same : Nat → Nat → Prop} {left right : View ρ} {key : ListKey}

theorem set (alike : left.Alike same right) (rows : List ρ) :
    (left.set rows).Alike (Drawn same left.clock right.clock) (right.set rows) where
  stamps := alike.stamps.drawn
  entry := .some ⟨rfl, .new .., .old alike.stamps.zero, rfl⟩
  flights := alike.flights.imp fun _ _ refresh => refresh.drawn ..

theorem update (alike : left.Alike same right) (change : List ρ → List ρ) :
    ∃ same, (left.update change).Alike same (right.update change) := by
  unfold View.update
  rcases rel_cases alike.entry with ⟨absent, absent'⟩ | ⟨_, _, present, present', entry⟩
  · rw [absent, absent']
    exact ⟨same, alike⟩
  · rw [present, present']
    refine ⟨Drawn same left.clock right.clock, alike.stamps.drawn, .some ?_, ?_⟩
    · exact ⟨congrArg change entry.rows, .new .., .old entry.fetched, entry.stale⟩
    · exact alike.flights.imp fun _ _ refresh => refresh.drawn ..

theorem mark (alike : left.Alike same right) : left.mark.Alike same right.mark where
  stamps := alike.stamps
  entry := by
    unfold View.mark
    rcases rel_cases alike.entry with ⟨absent, absent'⟩ | ⟨_, _, present, present', entry⟩
    · rw [absent, absent']
      exact .none
    · rw [present, present']
      exact .some ⟨entry.rows, entry.written, entry.fetched, rfl⟩
  flights := alike.flights

theorem forget (alike : left.Alike same right) : left.forget.Alike same right.forget :=
  ⟨alike.stamps, .none, alike.flights⟩

theorem begin (alike : left.Alike same right) (key : ListKey) :
    (left.begin key).Alike (Drawn same left.clock right.clock) (right.begin key) where
  stamps := alike.stamps.drawn
  entry := rel_mono alike.entry fun _ _ entry => entry.drawn ..
  flights := by
    refine List.rel_append (alike.flights.imp fun _ _ refresh => refresh.drawn ..) ?_
    refine .cons ⟨rfl, ?_, .new ..⟩ .nil
    rcases rel_cases alike.entry with ⟨absent, absent'⟩ | ⟨_, _, present, present', entry⟩
    · rw [absent, absent']
      exact .none
    · rw [present, present']
      exact .some (.old entry.written)

theorem land (alike : left.Alike same right) {leftRefresh rightRefresh : Refresh}
    (refreshes : Refresh.Alike same leftRefresh rightRefresh)
    (reply : Except SourceFault (List ρ)) :
    (left.land leftRefresh reply).Alike same (right.land rightRefresh reply) where
  stamps := alike.stamps
  entry := refreshes.fill alike.stamps alike.entry reply
  flights := refreshes.erase alike.stamps alike.flights

theorem fresh?_eq (alike : left.Alike same right) : left.fresh? = right.fresh? := by
  unfold View.fresh?
  rcases rel_cases alike.entry with ⟨absent, absent'⟩ | ⟨_, _, present, present', entry⟩
  · rw [absent, absent']
  · rw [present, present']
    simp only [Option.filter_some, entry.stale]
    split
    · exact congrArg some entry.rows
    · rfl

/-- The counters of views that are alike go on apart from one another. -/
theorem later (alike : left.Alike same right) {clock : Nat} (least : left.clock ≤ clock) :
    View.Alike same { left with clock } right :=
  ⟨alike.stamps.later least (Nat.le_refl _), alike.entry, alike.flights⟩

/-- The same step keeps views alike. -/
theorem step (alike : left.Alike same right) (key : ListKey) (step : Cache.Step ρ) :
    ∃ same, (left.step key step).Alike same (right.step key step) := by
  cases step with
  | set _ rows => exact ⟨_, alike.set rows⟩
  | update _ change => exact alike.update change
  | refresh => exact ⟨_, alike.begin key⟩
  | invalidate => exact ⟨_, alike.mark.begin key⟩
  | remove => exact ⟨_, alike.forget⟩
  | sweep | clear => exact ⟨_, alike⟩
  | ensure =>
      simp only [View.step, alike.fresh?_eq]
      cases right.fresh? with
      | some rows => exact ⟨_, alike⟩
      | none => exact ⟨_, alike.begin key⟩
  | land _ place reply =>
      rcases rel_cases (Refresh.Alike.getElem? alike.flights place) with
        ⟨missing, missing'⟩ | ⟨_, _, found, found', refreshes⟩
      · simp only [View.step, missing, missing']
        exact ⟨_, alike⟩
      · simp only [View.step, found, found']
        exact ⟨_, alike.land refreshes reply⟩

theorem returned_eq (alike : left.Alike same right) (step : Cache.Step ρ) :
    left.returned step = right.returned step := by
  have rows := Entry.Alike.map_rows alike.entry
  cases step with
  | set | refresh | invalidate | sweep | clear => rfl
  | update | remove => exact congrArg Returned.previous rows
  | ensure => simp only [View.returned, alike.fresh?_eq]
  | land _ place reply =>
      rcases rel_cases (Refresh.Alike.getElem? alike.flights place) with
        ⟨missing, missing'⟩ | ⟨_, _, found, found', refreshes⟩
      · simp only [View.returned, missing, missing']
      · simp only [View.returned, found, found']
        exact congrArg Returned.rows (refreshes.result_eq alike.stamps alike.entry reply)

theorem changes_eq (alike : left.Alike same right) (step : Cache.Step ρ) :
    left.changes step = right.changes step := by
  have cached := Entry.Alike.isSome_eq alike.entry
  cases step with
  | set | ensure | refresh | sweep | clear => rfl
  | update | invalidate | remove => simp only [View.changes, cached]
  | land _ place reply =>
      rcases rel_cases (Refresh.Alike.getElem? alike.flights place) with
        ⟨missing, missing'⟩ | ⟨_, _, found, found', refreshes⟩
      · simp only [View.changes, missing, missing']
      · simp only [View.changes, found, found']
        exact refreshes.changes_eq alike.stamps alike.entry reply

end View.Alike

/-! ### Traffic without the calls on other keys -/

namespace Traffic

/-- What is left of a step when only the calls on one key are made. -/
def concerning (traffic : Traffic ρ) (key : ListKey) (step : Cache.Step ρ) :
    List (Cache.Step ρ) :=
  match step with
  | .sweep scope =>
      if (traffic.cache.get? key).isSome ∧ key.isIn scope then [.invalidate key] else []
  | .clear => if (traffic.cache.get? key).isSome then [.remove key] else []
  | step => if step.key? = some key then [step] else []

/-- What is left of a run when only the calls on one key are made. -/
def alone (traffic : Traffic ρ) (key : ListKey) : List (Cache.Step ρ) → List (Cache.Step ρ)
  | [] => []
  | step :: steps => traffic.concerning key step ++ (traffic.step step).alone key steps

theorem alone_append (traffic : Traffic ρ) (key : ListKey) (early later : List (Cache.Step ρ)) :
    traffic.alone key (early ++ later) =
      traffic.alone key early ++ (traffic.run early).alone key later := by
  induction early generalizing traffic with
  | nil => rfl
  | cons step early inductionHypothesis =>
      simp only [List.cons_append, alone, run_cons, inductionHypothesis, List.append_assoc]

/-- Nothing under a key tells the traffic of two runs apart: neither the list, nor what
was published, nor what any call on the key returns. -/
structure SameUnder (key : ListKey) (whole other : Traffic ρ) : Prop where
  get?_eq : other.cache.get? key = whole.cache.get? key
  isStale?_eq : other.cache.isStale? key = whole.cache.isStale? key
  changesOf_eq : other.cache.changesOf key = whole.cache.changesOf key
  returned_eq : ∀ call : Cache.Step ρ, call.key? = some key →
    other.returned call = whole.returned call

/-- The traffic of two runs is equal under a key up to corresponding stamps. -/
structure Matches (key : ListKey) (whole other : Traffic ρ) : Prop where
  views : ∃ same, (whole.view key).Alike same (other.view key)
  changes : other.cache.changesOf key = whole.cache.changesOf key

namespace Matches

variable {key : ListKey} {whole other : Traffic ρ}

theorem sameUnder (matched : whole.Matches key other) : whole.SameUnder key other := by
  obtain ⟨⟨same, alike⟩, changes⟩ := matched
  refine ⟨(Entry.Alike.map_rows alike.entry).symm, ?_, changes, ?_⟩
  · change (other.view key).entry.map Entry.stale = (whole.view key).entry.map Entry.stale
    rcases rel_cases alike.entry with ⟨absent, absent'⟩ | ⟨_, _, present, present', entry⟩
    · rw [absent, absent']
    · rw [present, present', Option.map_some, Option.map_some, entry.stale]
  · intro call own
    rw [whole.returned_view own, other.returned_view own]
    exact (alike.returned_eq call).symm

/-- A step on the key is matched by the same step. -/
theorem own (matched : whole.Matches key other) (step : Cache.Step ρ)
    (own : step.key? = some key) : (whole.step step).Matches key (other.step step) := by
  obtain ⟨⟨same, alike⟩, changes⟩ := matched
  constructor
  · rw [whole.view_step step own, other.view_step step own]
    exact alike.step key step
  · rw [whole.changesOf_step own, other.changesOf_step own, alike.changes_eq step, changes]

/-- What passes is matched by nothing. -/
theorem passes (matched : whole.Matches key other) {after : Traffic ρ}
    (passes : whole.Passes key after) : after.Matches key other := by
  obtain ⟨⟨same, alike⟩, changes⟩ := matched
  refine ⟨⟨same, ?_⟩, changes.trans passes.changes.symm⟩
  rw [passes.view_eq]
  exact alike.later passes.clock

/-- A sweep that reaches the list is matched by one invalidation. -/
theorem sweep (matched : whole.Matches key other) {keys : List ListKey} (distinct : keys.Nodup)
    (reached : key ∈ keys) :
    (keys.foldl invalidate whole).Matches key (other.step (.invalidate key)) := by
  obtain ⟨middle, before, after⟩ := whole.sweep_reached distinct reached
  have arrived := matched.passes before
  have invalidated := arrived.own (.invalidate key) rfl
  exact invalidated.passes after

/-- A clearing is matched by the removal of the list. -/
theorem clear (matched : whole.Matches key other) :
    (whole.step .clear).Matches key (other.step (.remove key)) := by
  obtain ⟨⟨same, alike⟩, changes⟩ := matched.own (.remove key) rfl
  constructor
  · rw [whole.view_clear, ← whole.view_remove]
    exact ⟨same, alike⟩
  · rw [whole.changesOf_clear]
    exact changes

/-- Every step is matched by what is left of it. -/
theorem step (matched : whole.Matches key other) (step : Cache.Step ρ) :
    (whole.step step).Matches key (other.run (whole.concerning key step)) := by
  cases step with
  -- A sweep and a clearing name no key: what is left of them depends on what is cached.
  | sweep scope =>
      by_cases reached : (whole.cache.get? key).isSome ∧ key.isIn scope
      · simp only [concerning, reached, and_self, ↓reduceIte, run_cons, run_nil]
        exact matched.sweep (whole.cache.nodup_keysIn scope)
          ((whole.cache.mem_keysIn key scope).mpr reached)
      · simp only [concerning, reached, ↓reduceIte, run_nil]
        exact matched.passes
          (whole.passes_sweep (mt (whole.cache.mem_keysIn key scope).mp reached))
  | clear =>
      by_cases cached : (whole.cache.get? key).isSome
      · simp only [concerning, cached, ↓reduceIte, run_cons, run_nil]
        exact matched.clear
      · simp only [concerning, cached]
        exact matched.passes (whole.passes_clear cached)
  | set | update | ensure | refresh | invalidate | land | remove =>
      simp only [concerning]
      split
      next own => exact matched.own _ own
      next foreign => exact matched.passes (whole.passes_step rfl fun same => foreign (same ▸ rfl))

theorem run (matched : whole.Matches key other) (steps : List (Cache.Step ρ)) :
    (whole.run steps).Matches key (other.run (whole.alone key steps)) := by
  induction steps generalizing whole other with
  | nil => exact matched
  | cons step steps inductionHypothesis =>
      rw [alone, run_append, run_cons]
      exact inductionHypothesis (matched.step step)

end Matches

theorem matches_start (key : ListKey) : (start : Traffic ρ).Matches key start := by
  refine ⟨⟨fun stamp stamp' => stamp = 0 ∧ stamp' = 0, ⟨⟨rfl, rfl⟩, ?_, ?_⟩, .none, .nil⟩, rfl⟩
  · rintro _ _ _ _ ⟨rfl, rfl⟩ ⟨rfl, rfl⟩
    exact Iff.rfl
  · rintro _ _ ⟨rfl, rfl⟩
    exact ⟨Nat.one_pos, Nat.one_pos⟩

/-- Keys do not interfere: at every moment of every run nothing under a key tells the
run apart from the one in which only the calls on the key are made. -/
theorem sameUnder_alone (key : ListKey) (early later : List (Cache.Step ρ)) :
    start.alone key (early ++ later) =
        start.alone key early ++ (start.run early).alone key later ∧
      (start.run early).SameUnder key (start.run (start.alone key early)) :=
  ⟨start.alone_append key early later, ((matches_start key).run early).sameUnder⟩

example :
    start.alone .requisitions
        [.set (.shipments .inbound) [1], .set .requisitions [2], .sweep .all, .clear,
          .sweep .all] =
      [.set .requisitions [2], .invalidate .requisitions, .remove .requisitions] := rfl

end Traffic

end Depot
