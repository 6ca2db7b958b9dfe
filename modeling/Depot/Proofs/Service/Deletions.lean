import Depot.Proofs.Service.Verdicts
import Mathlib.Data.Finset.Card

/-!
Contract: what requests for deletion answer, and what they leave.

A request for deletion is granted when it has targets and each of them passes its tests, and then
exactly the records that are named are gone, each counted once. The targets are tested as they
stand in the request, but the batch is given every id once: a target that comes again changes
nothing. A request that is turned down changes nothing either, and has the code of the first
test that fails. The batch that follows passed checks is never refused.

Owns: the answers to requests for deletion, on databases whose records can be read.
Does not own: batches that run later than their checks (`Depot.Proofs.Service.Late`).
-/

namespace Depot

open Database

namespace Service

/-! ### The three kinds of request -/

def deleteRecords (database : Database) : Entity → List Target → Database × Answer Nat
  | .shipment => deleteShipments database
  | .line => deleteLines database
  | .requisition => deleteRequisitions database

def checkDeletions (database : Database) : Entity → List Target → Answer Unit
  | .shipment => checkShipmentDeletions database
  | .line => checkLineDeletions database
  | .requisition => checkRequisitionDeletions database

/-- The tests of one target. -/
def targetTests (database : Database) (entity : Entity) (target : Target) : List Test :=
  match entity with
  | .shipment => shipmentTests database target.id
  | .line => lineTests database target
  | .requisition => requisitionTests database target.id

/-- The tests of a request: that it has targets, and those of its targets in their order. -/
def deletionTests (database : Database) (entity : Entity) (targets : List Target) : List Test :=
  ⟨targets ≠ [], .validation⟩ :: targets.flatMap (targetTests database entity)

variable {database : Database}

theorem deleteRecords_eq (database : Database) (entity : Entity) (targets : List Target) :
    deleteRecords database entity targets =
      runChecked database (checkDeletions database entity targets)
        (database.deleteAll entity (distinctIds targets)) batchRejection := by
  cases entity <;> rfl

/-! ### Checks -/

/-- Ids that are checked once are checked as the targets are. -/
theorem rejectionCode?_checkAll_distinctIds (check : String → Answer Unit)
    (targets : List Target) :
    rejectionCode? (checkAll check (distinctIds targets)) =
      rejectionCode? (checkAll (fun target : Target => check target.id) targets) := by
  rw [rejectionCode?_checkAll, rejectionCode?_checkAll, distinctIds, findSome?_eraseDups,
    List.findSome?_map]
  rfl

theorem decides_checkDeletions (clear : database.Clear) (entity : Entity)
    (targets : List Target) :
    Decides (deletionTests database entity targets)
      (rejectionCode? (checkDeletions database entity targets)) := by
  cases entity with
  | shipment =>
      refine Decides.bind (.requireSome _ targets) fun _ _ => ?_
      rw [rejectionCode?_checkAll_distinctIds]
      exact .checkAll fun target _ => decides_checkShipmentDeletion clear.toIntact target.id
  | line =>
      refine Decides.bind (.requireSome _ targets) fun _ _ => ?_
      exact .checkAll fun target _ => decides_checkLineDeletion clear target
  | requisition =>
      refine Decides.bind (.requireSome _ targets) fun _ _ => ?_
      rw [rejectionCode?_checkAll_distinctIds]
      exact .checkAll fun target _ => decides_checkRequisitionDeletion clear.toIntact target.id

theorem ne_internal_targetTests (entity : Entity) (target : Target) :
    ∀ test ∈ targetTests database entity target, test.code ≠ .internal := by
  cases entity with
  | shipment => simp [targetTests, shipmentTests]
  | line => exact ne_internal_editTests _ _ RejectionCode.noConfusion RejectionCode.noConfusion
  | requisition => simp [targetTests, requisitionTests]

/-! ### Batches -/

/-- Records that are named twice go as if they were named once. -/
theorem without_distinctIds (database : Database) (entity : Entity) (targets : List Target) :
    database.without entity (distinctIds targets) =
      database.without entity (targets.map Target.id) := by
  have same : ∀ cell : Cell,
      cell.isOneOf (distinctIds targets) = cell.isOneOf (targets.map Target.id) := by
    intro cell
    rw [Bool.eq_iff_iff, Cell.isOneOf, Cell.isOneOf, List.any_eq_true, List.any_eq_true]
    simp only [distinctIds, List.mem_eraseDups]
  cases entity with
  | shipment => simp only [Database.without, withoutShipments, same]
  | line => simp only [Database.without, withoutLines, same]
  | requisition => simp only [Database.without, withoutRequisitions, same]

theorem length_distinctIds (targets : List Target) :
    (distinctIds targets).length = (targets.map Target.id).toFinset.card := by
  have distinct : (distinctIds targets).Nodup := nodup_eraseDups _
  rw [← List.toFinset_card_of_nodup distinct]
  congr 1
  ext id
  rw [List.mem_toFinset, List.mem_toFinset, distinctIds, List.mem_eraseDups]

/-- A request whose checks pass is done. -/
theorem deleteRecords_eq_ok (sound : database.Sound) (entity : Entity) (targets : List Target)
    (passed : checkDeletions database entity targets = .ok ()) :
    deleteRecords database entity targets =
      (database.without entity (targets.map Target.id),
        .ok (targets.map Target.id).toFinset.card) := by
  rw [← without_distinctIds, ← length_distinctIds]
  cases entity with
  | shipment =>
      obtain ⟨some, each⟩ := (checkShipmentDeletions_eq_ok database targets).mp passed
      exact deleteShipments_eq_ok sound some each
  | line =>
      obtain ⟨some, each⟩ := (checkLineDeletions_eq_ok database targets).mp passed
      exact deleteLines_eq_ok sound some each
  | requisition =>
      obtain ⟨some, each⟩ := (checkRequisitionDeletions_eq_ok database targets).mp passed
      exact deleteRequisitions_eq_ok sound some each

/-! ### Targets that come again -/

theorem distinctIds_repeated {early : List Target} {target : Target} (again : target ∈ early)
    (later : List Target) :
    distinctIds (early ++ target :: later) = distinctIds (early ++ later) := by
  have seen : target.id ∈ early.map Target.id := List.mem_map_of_mem again
  simp only [distinctIds, List.map_append, List.map_cons, List.eraseDups_append, List.removeAll]
  rw [List.filter_cons_of_neg (by simpa using ⟨target, again, rfl⟩)]

theorem checkAll_append {α : Type} (check : α → Answer Unit) (early later : List α) :
    checkAll check (early ++ later) = (do checkAll check early; checkAll check later) := by
  induction early with
  | nil => rfl
  | cons entry early inductionHypothesis =>
      rw [List.cons_append, checkAll, checkAll, bind_assoc, inductionHypothesis]

/-- An entry that passed its check passes it again. -/
theorem checkAll_repeated {α : Type} (check : α → Answer Unit) {early : List α} {entry : α}
    (again : entry ∈ early) (later : List α) :
    checkAll check (early ++ entry :: later) = checkAll check (early ++ later) := by
  rw [checkAll_append, checkAll_append]
  cases passed : checkAll check early with
  | error rejection => rfl
  | ok _ =>
      have passes := (checkAll_eq_ok check early).mp passed entry again
      show checkAll check (entry :: later) = checkAll check later
      rw [checkAll, passes]
      rfl

/-- A target that comes again changes neither what is done nor the answer. -/
theorem deleteRecords_repeated (database : Database) (entity : Entity) {early : List Target}
    {target : Target} (again : target ∈ early) (later : List Target) :
    deleteRecords database entity (early ++ target :: later) =
      deleteRecords database entity (early ++ later) := by
  have some : ∀ message, requireSome message (early ++ target :: later) =
      requireSome message (early ++ later) := by
    intro message
    cases early with
    | nil => cases again
    | cons first early => rfl
  have checked : checkDeletions database entity (early ++ target :: later) =
      checkDeletions database entity (early ++ later) := by
    cases entity with
    | shipment =>
        simp only [checkDeletions, checkShipmentDeletions, requireTargets, some,
          distinctIds_repeated again]
    | line =>
        simp only [checkDeletions, checkLineDeletions, requireTargets, some,
          checkAll_repeated _ again]
    | requisition =>
        simp only [checkDeletions, checkRequisitionDeletions, requireTargets, some,
          distinctIds_repeated again]
  rw [deleteRecords_eq, deleteRecords_eq, checked, distinctIds_repeated again]

/-! ### Requests -/

/-- What a request for deletion answers, and what it leaves. -/
structure Deletes (database : Database) (entity : Entity) (targets : List Target) : Prop extends
    Answers (deletionTests database entity targets) database
      (deleteRecords database entity targets) where
  /-- The ids are counted once, and exactly what they name is gone. -/
  done : ∀ count, (deleteRecords database entity targets).2 = .ok count →
    count = (targets.map Target.id).toFinset.card ∧
      (deleteRecords database entity targets).1 =
        database.without entity (targets.map Target.id)
  /-- The batch is not refused once the checks have passed. -/
  unhindered : checkDeletions database entity targets = .ok () →
    ∃ count, (database.deleteAll entity (distinctIds targets)).2 = .ok count
  repeats : ∀ early target later, targets = early ++ target :: later → target ∈ early →
    deleteRecords database entity targets = deleteRecords database entity (early ++ later)

theorem deleteRecords_cases (sound : database.Sound) (entity : Entity) (targets : List Target) :
    (checkDeletions database entity targets = .ok () ∧
      deleteRecords database entity targets =
        (database.without entity (targets.map Target.id),
          .ok (targets.map Target.id).toFinset.card)) ∨
      ∃ rejection, checkDeletions database entity targets = .error rejection ∧
        deleteRecords database entity targets = (database, .error rejection) := by
  have goes := deleteRecords_eq_ok sound entity targets
  rw [deleteRecords_eq] at goes ⊢
  exact runChecked_cases goes

/-- Whatever is to be deleted from a clear database. -/
theorem deletes_of_clear (clear : database.Clear) (entity : Entity) (targets : List Target) :
    Deletes database entity targets where
  toAnswers := .of_cases (decides_checkDeletions clear entity targets)
    (ne_internal_entries (ne_internal_targetTests entity) targets)
    (deleteRecords_cases clear.sound entity targets)
  done count answered := by
    rcases deleteRecords_cases clear.sound entity targets with ⟨-, done⟩ | ⟨rejection, -, nothing⟩
    · rw [done] at answered ⊢
      cases answered
      exact ⟨rfl, rfl⟩
    · rw [nothing] at answered
      cases answered
  unhindered passed := by
    have granted := deleteRecords_eq_ok clear.sound entity targets passed
    rw [deleteRecords_eq, passed] at granted
    exact ⟨_, congrArg Prod.snd (batch_of_runChecked granted)⟩
  repeats early target later split again := by
    rw [split]
    exact deleteRecords_repeated database entity again later

/-! ### Runs -/

/-- Whatever is to be deleted after a run that writes no NaN. The numbers that are stored are of
64 bits unless the run made `2 ^ 63` records. -/
theorem deletes_writeAll {writes : List Write} (numeric : ∀ write ∈ writes, write.IsNumeric)
    (fits : (empty.writeAll writes).NumbersFit) (entity : Entity) (targets : List Target) :
    Deletes (empty.writeAll writes) entity targets :=
  deletes_of_clear (clear_writeAll numeric fits) entity targets

open MixedRecords in
/-- A line that is named twice goes once; a lock comes before a missing parent that comes later,
a parent that differs before the lock, and stock of the other kind last; shipments and drafts
have to be there. -/
theorem deletes_mixedRecords :
    (∃ count, (deleteRecords store .line [⟨"c", some "a"⟩, ⟨"c", some "a"⟩]).2 = .ok count ∧
      count = 1 ∧ (deleteRecords store .line [⟨"c", some "a"⟩, ⟨"c", some "a"⟩]).1 =
        store.without .line ["c", "c"]) ∧
    FirstFails (deletionTests store .line [⟨"c", some "a"⟩, ⟨"e", some "b"⟩, ⟨"c", none⟩])
      .forbidden ∧
    FirstFails (deletionTests store .line [⟨"e", some "a"⟩]) .validation ∧
    FirstFails (deletionTests store .line [⟨"d", some "a"⟩]) .validation ∧
    FirstFails (deletionTests store .shipment [⟨"a", none⟩, ⟨"x", none⟩, ⟨"b", none⟩]) .notFound ∧
    FirstFails (deletionTests store .shipment [⟨"a", none⟩, ⟨"b", none⟩]) .validation ∧
    FirstFails (deletionTests store .requisition []) .validation := by
  have deletes : ∀ entity targets, Deletes store entity targets :=
    deletes_writeAll numeric_writes numbersFit_store
  refine ⟨⟨1, by decide +kernel, rfl, ?_⟩, ?_, ?_, ?_, ?_, ?_, ?_⟩
  · exact ((deletes .line _).done 1 (by decide +kernel)).2
  · exact ((deletes .line _).turnedDown _).mp (by decide +kernel)
  · exact ((deletes .line _).turnedDown _).mp (by decide +kernel)
  · exact ((deletes .line _).turnedDown _).mp (by decide +kernel)
  · exact ((deletes .shipment _).turnedDown _).mp (by decide +kernel)
  · exact ((deletes .shipment _).turnedDown _).mp (by decide +kernel)
  · exact ((deletes .requisition _).turnedDown _).mp (by decide +kernel)

end Service

end Depot
