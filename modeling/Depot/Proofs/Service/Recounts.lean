import Depot.Proofs.Service.Verdicts

/-!
Contract: what requests for pack counts answer, and what they leave.

A request for pack counts is granted when it has entries and each of them passes its tests.
Entries may come for one line several times, and for lines of several shipments: the last entry
for a line stands. Nothing but the pack counts of the named lines changes. A request that is
turned down changes nothing, and has the code of the first test that fails; the batch after
passed checks is never refused.

Owns: the answers to requests for pack counts, on databases whose records can be read.
Does not own: what the screen of a shipment shows meanwhile (`Depot.Proofs.Screen.Packs`).
-/

namespace Depot

open Database Decimal

/-! ### The last count -/

/-- The counts of a request, as the batch is given them. -/
def countsOf (updates : List PackUpdate) : List (String × Binary64) :=
  updates.map fun update => (update.id, update.packs)

theorem lastCount?_countsOf (updates : List PackUpdate) (id : String) :
    lastCount? (countsOf updates) id =
      (updates.reverse.find? fun update => update.id = id).map PackUpdate.packs := by
  rw [lastCount?, countsOf, ← List.map_reverse, List.find?_map, Option.map_map]
  rfl

/-- An entry that no later one is for the line of is the last. -/
theorem lastCount?_of_last {early later : List PackUpdate} {update : PackUpdate}
    (last : ∀ other ∈ later, other.id ≠ update.id) :
    lastCount? (countsOf (early ++ update :: later)) update.id = some update.packs := by
  have none : (later.reverse.find? fun other => other.id = update.id) = none := by
    refine List.find?_eq_none.mpr ?_
    intro other member
    rw [decide_eq_true_eq]
    exact last other (List.mem_reverse.mp member)
  rw [lastCount?_countsOf, List.reverse_append, List.reverse_cons, List.find?_append,
    List.find?_append, none, Option.none_or, List.find?_singleton]
  simp

/-- The row with the last count that is given under its id. -/
def Database.LineRow.recounted (updates : List PackUpdate) (row : LineRow) : LineRow :=
  match updates.reverse.find? fun update => row.id = .text update.id with
  | some update => { row with packs := .real update.packs.kept }
  | none => row

/-- Counts for stock, none of them NaN, come to the last one. -/
theorem Database.LineRow.foldl_repack_countsOf {row : LineRow} {id : String}
    (named : row.id = .text id) {updates : List PackUpdate}
    (stock : ∀ update ∈ updates, update.id = id → isStockRow row = true)
    (numbers : ∀ update ∈ updates, update.packs.isNaN = false) :
    (countsOf updates).foldl LineRow.repack row = row.recounted updates := by
  have sameName : (fun update : PackUpdate => decide (row.id = .text update.id)) =
      fun update => decide (update.id = id) := by
    funext update
    rw [decide_eq_decide, named, Cell.text.injEq]
    exact eq_comm
  rw [recounted, sameName]
  have last := lastCount?_countsOf updates id
  cases found : updates.reverse.find? fun update => update.id = id with
  | none =>
      rw [found] at last
      rcases foldl_repack_cases named (countsOf updates) with stays | ⟨packs, given, -⟩
      · exact stays
      · rw [given] at last
        cases last
  | some update =>
      rw [found] at last
      have given := List.mem_reverse.mp (List.mem_of_find?_eq_some found)
      have same : update.id = id := by simpa using List.find?_some found
      rw [foldl_repack named (stock update given same), last, Option.map_some, Option.map_some,
        Option.getD_some, Cell.stored_ofDouble (numbers update given)]

namespace Service

/-! ### Checks -/

/-- The tests of a request: that it has entries, and those of its entries in their order. -/
def recountTests (database : Database) (updates : List PackUpdate) : List Test :=
  ⟨updates ≠ [], .validation⟩ :: updates.flatMap (countTests database)

variable {database : Database} {updates : List PackUpdate}

theorem decides_checkPackUpdates (clear : database.Clear) (updates : List PackUpdate) :
    Decides (recountTests database updates)
      (rejectionCode? (checkPackUpdates database updates)) := by
  refine Decides.bind (.requireSome _ updates) fun _ _ => ?_
  exact .checkAll fun update _ => decides_checkPackUpdate clear update

theorem ne_internal_countTests (update : PackUpdate) :
    ∀ test ∈ countTests database update, test.code ≠ .internal :=
  ne_internal_editTests _ _ RejectionCode.noConfusion RejectionCode.noConfusion

/-! ### Batches -/

theorem isNaN_of_checked (checked : ∀ update ∈ updates, checkPackUpdate database update = .ok ()) :
    ∀ update ∈ updates, update.packs.isNaN = false := by
  intro update member
  exact Binary64.isNaN_of_isFinite ((checkPackUpdate_eq_ok ..).mp (checked update member)).1

/-- Rows with the last of their counts are all that a batch of checked counts changes. -/
theorem withAllPacks_countsOf (sound : database.Sound)
    (checked : ∀ update ∈ updates, checkPackUpdate database update = .ok ()) :
    database.withAllPacks (countsOf updates) =
      { database with lines := database.lines.map (LineRow.recounted updates) } := by
  rw [withAllPacks]
  congr 1
  refine List.map_congr_left ?_
  intro row inside
  obtain ⟨id, named⟩ := (sound.lines row inside).id
  refine LineRow.foldl_repack_countsOf named ?_ (isNaN_of_checked checked)
  rintro update member rfl
  obtain ⟨-, -, line, shipment, editable, stock⟩ :=
    (checkPackUpdate_eq_ok ..).mp (checked update member)
  have can := sound.canSetPacks editable stock update.packs
  have found := (find?_eq_some_iff LineRow.id sound.lineIds update.id row).mpr ⟨inside, named⟩
  rwa [CanSetPacks, lineRow?, found, Option.any_some] at can

theorem updateLines_cases (sound : database.Sound) (updates : List PackUpdate) :
    (checkPackUpdates database updates = .ok () ∧
      updateLines database updates = (database.withAllPacks (countsOf updates),
        .ok updates.length)) ∨
      ∃ rejection, checkPackUpdates database updates = .error rejection ∧
        updateLines database updates = (database, .error rejection) := by
  refine runChecked_cases ?_
  intro passed
  obtain ⟨some, checked⟩ := (checkPackUpdates_eq_ok database updates).mp passed
  exact updateLines_eq_ok sound some checked

/-- A line reads with the last count that was given for it, which is kept by value. -/
theorem lineById_withAllPacks (sound : database.Sound) {early later : List PackUpdate}
    {update : PackUpdate}
    (checked : ∀ other ∈ early ++ update :: later, checkPackUpdate database other = .ok ())
    (last : ∀ other ∈ later, other.id ≠ update.id) :
    ∃ line, database.lineById update.id = .ok (some line) ∧
      (database.withAllPacks (countsOf (early ++ update :: later))).lineById update.id =
        .ok (some (line.withPacks update.packs.kept)) ∧
      update.packs.equals update.packs.kept = true := by
  have member : update ∈ early ++ update :: later :=
    List.mem_append_right _ List.mem_cons_self
  have numbers := isNaN_of_checked checked
  have given : ∀ change ∈ countsOf (early ++ update :: later), change.2.isNaN = false :=
    List.forall_mem_map.mpr numbers
  obtain ⟨-, -, line, shipment, editable, stock⟩ :=
    (checkPackUpdate_eq_ok ..).mp (checked update member)
  obtain ⟨stored, -⟩ := (editableLine_eq_ok ..).mp editable
  refine ⟨line, stored, ?_, Binary64.equals_kept (numbers update member)⟩
  obtain ⟨row, inside, named, reads⟩ := (sound.lineById_eq_ok ..).mp stored
  have rowSound := sound.lines row inside
  have sameId : line.id = update.id :=
    Cell.text.inj ((rowSound.of_read reads).1.symm.trans named)
  refine ((sound.withAllPacks _).lineById_eq_ok ..).mpr
    ⟨_, List.mem_map_of_mem inside, (LineRow.id_foldl_repack row _).trans named, ?_⟩
  rw [LineRow.read_foldl_repack rowSound reads given,
    Line.foldl_repack stock, sameId, lastCount?_of_last last, Option.map_some, Option.getD_some]

/-! ### Requests -/

/-- What a request for pack counts answers, and what it leaves. -/
structure Recounts (database : Database) (updates : List PackUpdate) : Prop extends
    Answers (recountTests database updates) database (updateLines database updates) where
  /-- The named rows have the last of their counts, and nothing else is different. -/
  done : ∀ count, (updateLines database updates).2 = .ok count →
    count = updates.length ∧ (updateLines database updates).1 =
      { database with lines := database.lines.map (LineRow.recounted updates) }
  /-- A named line is read as before with the last of its counts, the sign of a zero apart. -/
  named : ∀ count, (updateLines database updates).2 = .ok count →
    ∀ early update later, updates = early ++ update :: later →
      (∀ other ∈ later, other.id ≠ update.id) →
      ∃ line, database.lineById update.id = .ok (some line) ∧
        (updateLines database updates).1.lineById update.id =
          .ok (some (line.withPacks update.packs.kept)) ∧
        update.packs.equals update.packs.kept = true
  /-- The batch is not refused once the checks have passed. -/
  unhindered : checkPackUpdates database updates = .ok () →
    ∃ count, (database.updatePacks (countsOf updates)).2 = .ok count

/-- A request that is granted has passed its checks and is done. -/
theorem done_of_granted (sound : database.Sound) {count : Nat}
    (answered : (updateLines database updates).2 = .ok count) :
    (∀ update ∈ updates, checkPackUpdate database update = .ok ()) ∧
      updateLines database updates =
        (database.withAllPacks (countsOf updates), .ok updates.length) := by
  rcases updateLines_cases sound updates with ⟨passed, done⟩ | ⟨rejection, -, nothing⟩
  · exact ⟨((checkPackUpdates_eq_ok database updates).mp passed).2, done⟩
  · rw [nothing] at answered
    cases answered

/-- Whichever counts are given for the lines of a clear database. -/
theorem recounts_of_clear (clear : database.Clear) (updates : List PackUpdate) :
    Recounts database updates where
  toAnswers := .of_cases (decides_checkPackUpdates clear updates)
    (ne_internal_entries ne_internal_countTests updates) (updateLines_cases clear.sound updates)
  done count answered := by
    obtain ⟨checked, done⟩ := done_of_granted clear.sound answered
    rw [done] at answered ⊢
    cases answered
    exact ⟨rfl, withAllPacks_countsOf clear.sound checked⟩
  named count answered early update later split last := by
    obtain ⟨checked, done⟩ := done_of_granted clear.sound answered
    subst split
    rw [done]
    exact lineById_withAllPacks clear.sound checked last
  unhindered passed := by
    obtain ⟨some, each⟩ := (checkPackUpdates_eq_ok database updates).mp passed
    have granted := updateLines_eq_ok clear.sound some each
    rw [updateLines, passed] at granted
    exact ⟨_, congrArg Prod.snd (batch_of_runChecked granted)⟩

/-! ### Runs -/

/-- Whichever counts are given after a run that writes no NaN. The numbers that are stored are of
64 bits unless the run made `2 ^ 63` records. -/
theorem recounts_writeAll {writes : List Write} (numeric : ∀ write ∈ writes, write.IsNumeric)
    (fits : (empty.writeAll writes).NumbersFit) (updates : List PackUpdate) :
    Recounts (empty.writeAll writes) updates :=
  recounts_of_clear (clear_writeAll numeric fits) updates

open MixedRecords in
/-- Of two counts for a line the last one stands; a bad count comes before all else, a lock before
the kind of the line, and the first entry that fails before the later ones. -/
theorem recounts_mixedRecords :
    (∃ line, store.lineById "c" = .ok (some line) ∧
      (updateLines store [⟨"c", "a", ⟨0x4000000000000000⟩⟩, ⟨"d", "a", .zero⟩,
        ⟨"c", "a", ⟨0x4014000000000000⟩⟩]).1.lineById "c" =
          .ok (some (line.withPacks (Binary64.kept ⟨0x4014000000000000⟩))) ∧
      Binary64.equals ⟨0x4014000000000000⟩ (Binary64.kept ⟨0x4014000000000000⟩) = true) ∧
    FirstFails (recountTests store [⟨"x", "a", ⟨0x7ff8000000000000⟩⟩]) .validation ∧
    FirstFails (recountTests store [⟨"c", "a", .zero⟩, ⟨"x", "a", .zero⟩, ⟨"c", "b", .zero⟩])
      .notFound ∧
    FirstFails (recountTests store [⟨"c", "b", .zero⟩]) .validation ∧
    FirstFails (recountTests store [⟨"e", "b", .zero⟩]) .forbidden ∧
    FirstFails (recountTests store [⟨"h", "a", .zero⟩]) .validation ∧
    FirstFails (recountTests store []) .validation := by
  have recounts : ∀ updates, Recounts store updates :=
    recounts_writeAll numeric_writes numbersFit_store
  refine ⟨?_, ?_, ?_, ?_, ?_, ?_, ?_⟩
  · exact (recounts _).named 3 (by decide +kernel)
      [⟨"c", "a", ⟨0x4000000000000000⟩⟩, ⟨"d", "a", .zero⟩] ⟨"c", "a", ⟨0x4014000000000000⟩⟩ []
      rfl (List.forall_mem_nil _)
  · exact ((recounts _).turnedDown _).mp (by decide +kernel)
  · exact ((recounts _).turnedDown _).mp (by decide +kernel)
  · exact ((recounts _).turnedDown _).mp (by decide +kernel)
  · exact ((recounts _).turnedDown _).mp (by decide +kernel)
  · exact ((recounts _).turnedDown _).mp (by decide +kernel)
  · exact ((recounts _).turnedDown _).mp (by decide +kernel)

end Service

end Depot
