import Depot.Http.Client
import Depot.Proofs.Database.Packs
import Depot.Proofs.Screen.Deletion

/-!
Contract: pack counts as they are shown before the source replies, and as the service
stores them.

The screen of a shipment turns the counts that a user gives into changed lines, and the
client sends the counts of these lines. Ids that name no line of stock are dropped on the
way. Both sides let the last count for a line stand: the client when it replaces rows, the
service because it stores one count after the other.

Owns: what the screen shows of new pack counts, against the lines of the service.
Does not own: deletions (`Depot.Proofs.Screen.Deletion`), the lines that are stored
(`Depot.Proofs.Database.Packs`).
-/

namespace Depot

open Database Decimal

namespace ShipmentScreen

variable {lines : List Line} {line row : Line} {change : String × Binary64}

/-- A count changes a line of stock that has the id. -/
theorem of_lineWithPacks?_eq_some (changed : lineWithPacks? lines change = some row) :
    ∃ line ∈ lines, line.id = change.1 ∧ line.isService = false ∧
      row = line.withPacks change.2 := by
  obtain ⟨line, found, rfl⟩ := Option.map_eq_some_iff.mp changed
  have named := List.find?_some found
  simp only [Bool.and_eq_true, decide_eq_true_eq, Bool.not_eq_true'] at named
  exact ⟨line, List.mem_of_find?_eq_some found, named.1, named.2, rfl⟩

/-- With different ids there is one line that a count can change. -/
theorem lineWithPacks?_of_mem (distinct : (lines.map Line.id).Nodup) (member : line ∈ lines)
    (stock : line.isService = false) (same : change.1 = line.id) :
    lineWithPacks? lines change = some (line.withPacks change.2) := by
  cases changed : lineWithPacks? lines change with
  | none =>
      have missing := List.find?_eq_none.mp (Option.map_eq_none_iff.mp changed) line member
      simp [same, stock] at missing
  | some row =>
      obtain ⟨other, inside, named, -, rfl⟩ := of_lineWithPacks?_eq_some changed
      rw [List.inj_on_of_nodup_map distinct inside member (named.trans same)]

/-! ### What is shown -/

/-- A line of stock is shown with the last count that was given for it. -/
theorem find?_reverse_lineWithPacks? (distinct : (lines.map Line.id).Nodup)
    (member : line ∈ lines) (stock : line.isService = false)
    (changes : List (String × Binary64)) :
    Rows.find? (changes.filterMap (lineWithPacks? lines)).reverse line.id =
      (lastCount? changes line.id).map line.withPacks := by
  induction changes using List.reverseRecOn with
  | nil => rfl
  | append_singleton changes change inductionHypothesis =>
      rw [List.filterMap_append, List.reverse_append, lastCount?_append_singleton, Rows.find?,
        List.find?_append]
      by_cases same : change.1 = line.id
      · rw [List.filterMap_cons, lineWithPacks?_of_mem distinct member stock same]
        simp [same, Row.id, Line.withPacks]
      · have none : (([change].filterMap (lineWithPacks? lines)).reverse.find? fun row =>
            Row.id row = line.id) = none := by
          refine List.find?_eq_none.mpr ?_
          intro row shown
          obtain ⟨_, single, changed⟩ := List.mem_filterMap.mp (List.mem_reverse.mp shown)
          rw [List.mem_singleton.mp single] at changed
          obtain ⟨other, -, named, -, rfl⟩ := of_lineWithPacks?_eq_some changed
          have differs : Row.id (other.withPacks change.2) ≠ line.id := fun back =>
            same (named.symm.trans back)
          simpa using differs
        rw [none, Option.none_or, if_neg same]
        exact inductionHypothesis

/-- A service is shown as it is. -/
theorem find?_reverse_lineWithPacks?_service (distinct : (lines.map Line.id).Nodup)
    (member : line ∈ lines) (service : line.isService = true)
    (changes : List (String × Binary64)) :
    Rows.find? (changes.filterMap (lineWithPacks? lines)).reverse line.id = none := by
  refine List.find?_eq_none.mpr ?_
  intro row shown
  obtain ⟨change, -, changed⟩ := List.mem_filterMap.mp (List.mem_reverse.mp shown)
  obtain ⟨other, inside, -, stock, rfl⟩ := of_lineWithPacks?_eq_some changed
  have differs : Row.id (other.withPacks change.2) ≠ line.id := by
    intro back
    rw [List.inj_on_of_nodup_map distinct inside member back, service] at stock
    cases stock
  simpa using differs

/-! ### What is sent -/

/-- The count that is sent for a changed line. -/
theorem packUpdate?_withPacks (stock : line.isService = false) (packs : Binary64) :
    Http.Inquiry.packUpdate? (line.withPacks packs) = some ⟨line.id, line.shipmentId, packs⟩ := by
  obtain ⟨id, shipmentId, item, content⟩ := line
  cases content with
  | service => simp [Line.isService, Line.kind, LineContent.kind] at stock
  | stockIn | stockOut => rfl

/-- The updates that the client sends for counts. -/
def sentUpdates (lines : List Line) (changes : List (String × Binary64)) : List PackUpdate :=
  (changes.filterMap (lineWithPacks? lines)).filterMap Http.Inquiry.packUpdate?

/-- Every update is of a line of stock and has a count that was given. -/
theorem of_mem_sentUpdates {changes : List (String × Binary64)} {update : PackUpdate}
    (sent : update ∈ sentUpdates lines changes) :
    ∃ line ∈ lines, line.isService = false ∧ ∃ change ∈ changes,
      update = ⟨line.id, line.shipmentId, change.2⟩ := by
  obtain ⟨row, changed, packed⟩ := List.mem_filterMap.mp sent
  obtain ⟨change, given, changed⟩ := List.mem_filterMap.mp changed
  obtain ⟨line, member, -, stock, rfl⟩ := of_lineWithPacks?_eq_some changed
  rw [packUpdate?_withPacks stock] at packed
  exact ⟨line, member, stock, change, given, (Option.some.inj packed).symm⟩

/-- For every changed line an update is sent. -/
theorem sentUpdates_ne_nil {changes : List (String × Binary64)}
    (some : changes.filterMap (lineWithPacks? lines) ≠ []) : sentUpdates lines changes ≠ [] := by
  obtain ⟨row, changed⟩ := List.exists_mem_of_ne_nil _ some
  obtain ⟨change, given, isRow⟩ := List.mem_filterMap.mp changed
  obtain ⟨line, -, -, stock, rfl⟩ := of_lineWithPacks?_eq_some isRow
  exact List.ne_nil_of_mem (List.mem_filterMap.mpr ⟨_, changed, packUpdate?_withPacks stock _⟩)

/-- The last count that is sent for a line of stock is the last that was given for it. -/
theorem lastCount?_sentUpdates (distinct : (lines.map Line.id).Nodup) (member : line ∈ lines)
    (stock : line.isService = false) (changes : List (String × Binary64)) :
    lastCount? ((sentUpdates lines changes).map fun update => (update.id, update.packs))
      line.id = lastCount? changes line.id := by
  induction changes using List.reverseRecOn with
  | nil => rfl
  | append_singleton changes change inductionHypothesis =>
      have grows : sentUpdates lines (changes ++ [change]) = sentUpdates lines changes ++
          ((lineWithPacks? lines change).bind Http.Inquiry.packUpdate?).toList := by
        rw [sentUpdates, List.filterMap_append, List.filterMap_append, ← sentUpdates]
        cases changed : lineWithPacks? lines change with
        | none => simp [changed]
        | some row => cases packed : Http.Inquiry.packUpdate? row <;> simp [changed, packed]
      rw [grows, List.map_append, lastCount?_append_singleton]
      cases changed : lineWithPacks? lines change with
      -- A count that is not sent is for another line, because the cached line would be found.
      | none =>
          have differs : change.1 ≠ line.id := by
            intro same
            rw [lineWithPacks?_of_mem distinct member stock same] at changed
            cases changed
          simpa [differs] using inductionHypothesis
      | some row =>
          obtain ⟨other, -, named, otherStock, rfl⟩ := of_lineWithPacks?_eq_some changed
          rw [Option.bind_some, packUpdate?_withPacks otherStock, Option.toList_some,
            List.map_singleton, lastCount?_append_singleton, inductionHypothesis, named]

end ShipmentScreen

/-! ### Both sides -/

theorem Rows.same_map {ρ : Type} [Row ρ] (left right : ρ → ρ) {rows : List ρ}
    (same : ∀ row ∈ rows, Row.same (left row) (right row) = true) :
    Rows.same (rows.map left) (rows.map right) = true := by
  induction rows with
  | nil => rfl
  | cons row rows inductionHypothesis =>
      rw [List.map_cons, List.map_cons, Rows.same, same row List.mem_cons_self, Bool.true_and]
      exact inductionHypothesis fun other member => same other (List.mem_cons_of_mem _ member)

namespace ShipmentScreen

variable {screen : ShipmentScreen} {database : Database} {desk shown : Desk Line}
  {lines : List Line} {edit : Edit Line}

/-- Lines with the counts that were given are lines with the counts that are stored. -/
theorem same_withReplacements (distinct : (lines.map Line.id).Nodup)
    (numeric : ∀ line ∈ lines, line.same line = true) {changes : List (String × Binary64)}
    (numbers : ∀ change ∈ changes, change.2.isNaN = false) :
    Rows.same (Rows.withReplacements (changes.filterMap (lineWithPacks? lines)) lines)
      (lines.map fun line =>
        ((sentUpdates lines changes).map fun update => (update.id, update.packs)).foldl
          Line.repack line) = true := by
  -- Line by line: both sides come down to the last count that was given for the line.
  refine Rows.same_map _ _ ?_
  intro line member
  change Line.same ((Rows.find? _ line.id).getD line) _ = true
  cases service : line.isService with
  | true =>
      rw [find?_reverse_lineWithPacks?_service distinct member service, Option.getD_none,
        Line.foldl_repack_service service]
      exact numeric line member
  | false =>
      rw [find?_reverse_lineWithPacks? distinct member service, Line.foldl_repack service,
        lastCount?_sentUpdates distinct member service]
      cases last : lastCount? changes line.id with
      | none => exact numeric line member
      | some packs =>
          obtain ⟨change, found, rfl⟩ := Option.map_eq_some_iff.mp last
          have given := List.mem_reverse.mp (List.mem_of_find?_eq_some found)
          exact Line.same_withPacks_kept (numeric line member) (numbers change given)

/-- New pack counts are shown as the service stores them. -/
theorem foresees_update (sound : database.Sound)
    (mirrors : screen.Mirrors desk.cache database lines) {changes : List (String × Binary64)}
    (counts : ∀ change ∈ changes,
      change.2.isFinite = true ∧ change.2.isBelowZero = false)
    (writing : desk.update (screen.packUpdate changes desk.cache) = (shown, .writing edit)) :
    ∃ rows updates after count guess stored,
      edit.ask = .update rows ∧
        (Http.Inquiry.updateLines rows).body = some (Wire.write (UpdateRequest.mk updates)) ∧
        Service.updateLines database updates = (after, .ok count) ∧
        shown.cache.get? screen.key = some guess ∧
        after.linesOf screen.header.id = .ok stored ∧ Rows.same guess stored = true := by
  obtain ⟨enabled, some, asks, shows⟩ := desk.update_writing writing
  have changed : (screen.packUpdate changes desk.cache).rows =
      changes.filterMap (lineWithPacks? lines) := by
    rw [packUpdate, mirrors.cached_eq]
  have numbers : ∀ change ∈ changes, change.2.isNaN = false := fun change given =>
    Binary64.isNaN_of_isFinite (counts change given).1
  have granted : ∀ update ∈ sentUpdates lines changes,
      Service.checkPackUpdate database update = .ok () := by
    intro update sent
    obtain ⟨line, member, stock, change, given, rfl⟩ := of_mem_sentUpdates sent
    obtain ⟨finite, above⟩ := counts change given
    exact (Service.checkPackUpdate_eq_ok ..).mpr ⟨finite, above, line, screen.header,
      mirrors.editableLine sound enabled member, stock⟩
  have sentNumbers : ∀ change ∈
      (sentUpdates lines changes).map fun update => (update.id, update.packs),
      change.2.isNaN = false := by
    intro change member
    obtain ⟨update, sent, rfl⟩ := List.mem_map.mp member
    obtain ⟨line, -, -, origin, given, rfl⟩ := of_mem_sentUpdates sent
    exact numbers origin given
  rw [changed] at some asks shows
  refine ⟨_, sentUpdates lines changes, _, _, _, _, asks, rfl,
    Service.updateLines_eq_ok sound (sentUpdates_ne_nil some) granted, ?_,
    sound.linesOf_withAllPacks mirrors.stored sentNumbers,
    same_withReplacements (sound.nodup_linesOf mirrors.stored)
      (fun line member => sound.same_self_of_mem mirrors.stored member) numbers⟩
  rw [← Option.map_some, ← mirrors.cached]
  exact shows

end ShipmentScreen

end Depot
