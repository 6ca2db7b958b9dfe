import Depot.Proofs.Database.AllOrNothing
import Depot.Proofs.Service.Late
import Depot.Proofs.Service.Readable

/-!
Contract: what the checks of a request test, and what comes of it.

A check is a list of tests, each with the code that the request is turned down with when the
test fails. As long as every record can be read nothing else can go wrong: an entry is accepted
when all of its tests pass, and otherwise the first test that fails gives the code. The tests of
a request are those of its entries, one entry after the other.

Owns: tests, and the tests of every check.
Does not own: what a granted request does (`Depot.Proofs.Service.Deletions`,
`Depot.Proofs.Service.Recounts`).
-/

namespace Depot

open Database

/-! ### Databases whose records can be read -/

namespace Database

/-- A database all of whose records can be read. -/
structure Clear (database : Database) : Prop extends Intact database where
  lines : ∀ row ∈ database.lines, ∃ line, row.read = .ok line

/-- Whether the numbers that are stored are numbers of 64 bits. -/
structure NumbersFit (database : Database) : Prop where
  shipments : ∀ row ∈ database.shipments, ∃ number : Int64, row.number = .integer number.toInt
  requisitions : ∀ row ∈ database.requisitions,
    ∃ number : Int64, row.number = .integer number.toInt

/-- Numbers cannot grow out of 64 bits before `2 ^ 63` records have been made. -/
theorem numbersFit_writeAll {writes : List Write}
    (few : writes.countP Write.isNumbered < Nat.pow 2 63) : (empty.writeAll writes).NumbersFit where
  shipments row member := by
    rw [(kept_writeAll writes few).shipments.table] at member
    obtain ⟨shipment, -, rfl⟩ := List.mem_map.mp member
    exact ⟨shipment.number, rfl⟩
  requisitions row member := by
    rw [(kept_writeAll writes few).requisitions.table] at member
    obtain ⟨requisition, -, rfl⟩ := List.mem_map.mp member
    exact ⟨requisition.number, rfl⟩

/-- Every run that writes no NaN leaves a clear database, its numbers being of 64 bits. -/
theorem clear_writeAll {writes : List Write} (numeric : ∀ write ∈ writes, write.IsNumeric)
    (fits : (empty.writeAll writes).NumbersFit) : (empty.writeAll writes).Clear where
  sound := sound_writeAll writes
  owned := owned_writeAll writes
  shipments row member := by
    obtain ⟨number, numbered⟩ := fits.shipments row member
    exact (legible_writeAll writes row member).read
      ((sound_writeAll writes).shipments row member) numbered
  requisitions row member := by
    obtain ⟨number, numbered⟩ := fits.requisitions row member
    exact (legibleRequisitions_writeAll writes row member).read
      ((sound_writeAll writes).requisitions row member) numbered
  lines row member := by
    rw [lines_writeAll] at member
    obtain ⟨line, left, rfl⟩ := List.mem_map.mp member
    exact ⟨line.kept, LineRow.read_written (numeric_history numeric line left)⟩

/-- A look at rows that can be read finds a record or finds none. -/
theorem readFirst_cases {α β : Type} {read : α → Except Fault β} {rows : List α}
    (reads : ∀ row ∈ rows, ∃ record, read row = .ok record) (wanted : α → Bool) :
    readFirst read (rows.find? wanted) = .ok none ∨
      ∃ record, readFirst read (rows.find? wanted) = .ok (some record) := by
  cases found : rows.find? wanted with
  | none => exact .inl rfl
  | some row =>
      obtain ⟨record, isRecord⟩ := reads row (List.mem_of_find?_eq_some found)
      exact .inr ⟨record, (readFirst_eq_ok_some ..).mpr ⟨row, rfl, isRecord⟩⟩

variable {database : Database}

namespace Intact

theorem shipmentById_cases (intact : database.Intact) (id : String) :
    database.shipmentById id = .ok none ∨
      ∃ shipment, database.shipmentById id = .ok (some shipment) := by
  rw [shipmentById, whenOpen, if_pos intact.sound.isOpen]
  exact readFirst_cases intact.shipments _

theorem requisitionById_cases (intact : database.Intact) (id : String) :
    database.requisitionById id = .ok none ∨
      ∃ requisition, database.requisitionById id = .ok (some requisition) := by
  rw [requisitionById, whenOpen, if_pos intact.sound.isOpen]
  exact readFirst_cases intact.requisitions _

/-- The shipment of a stored line is stored. -/
theorem shipmentById_of_line (intact : database.Intact) {id : String} {line : Line}
    (stored : database.lineById id = .ok (some line)) :
    ∃ shipment, database.shipmentById line.shipmentId = .ok (some shipment) := by
  obtain ⟨row, inside, -, reads⟩ := (intact.sound.lineById_eq_ok ..).mp stored
  obtain ⟨-, belongs, -⟩ := (intact.sound.lines row inside).of_read reads
  obtain ⟨owner, there, mine⟩ := intact.owned row inside
  obtain ⟨shipment, readsOwner⟩ := intact.shipments owner there
  exact ⟨shipment, (intact.sound.shipmentById_eq_ok ..).mpr
    ⟨owner, there, mine.trans belongs, readsOwner⟩⟩

end Intact

theorem Clear.lineById_cases (clear : database.Clear) (id : String) :
    database.lineById id = .ok none ∨ ∃ line, database.lineById id = .ok (some line) := by
  rw [lineById, whenOpen, if_pos clear.sound.isOpen]
  exact readFirst_cases clear.lines _

/-! ### Stored records -/

/-- Whether the id names a stored line of which something is true. -/
def HasLine (database : Database) (id : String) (meets : Line → Prop) : Prop :=
  ∃ line, database.lineById id = .ok (some line) ∧ meets line

def HasShipment (database : Database) (id : String) (meets : Shipment → Prop) : Prop :=
  ∃ shipment, database.shipmentById id = .ok (some shipment) ∧ meets shipment

def HasRequisition (database : Database) (id : String) (meets : Requisition → Prop) : Prop :=
  ∃ requisition, database.requisitionById id = .ok (some requisition) ∧ meets requisition

section Stored

variable {id : String}

theorem hasLine_iff {line : Line} (stored : database.lineById id = .ok (some line))
    (meets : Line → Prop) : database.HasLine id meets ↔ meets line := by
  rw [HasLine, stored]
  simp

theorem hasShipment_iff {shipment : Shipment}
    (stored : database.shipmentById id = .ok (some shipment)) (meets : Shipment → Prop) :
    database.HasShipment id meets ↔ meets shipment := by
  rw [HasShipment, stored]
  simp

theorem hasRequisition_iff {requisition : Requisition}
    (stored : database.requisitionById id = .ok (some requisition))
    (meets : Requisition → Prop) : database.HasRequisition id meets ↔ meets requisition := by
  rw [HasRequisition, stored]
  simp

end Stored

end Database

namespace Service

variable {α β : Type}

/-! ### Tests -/

/-- What has to be so, and the code of the answer if it is not. -/
structure Test where
  passes : Prop
  code : RejectionCode

/-- The first of the tests that fails has the code. -/
inductive FirstFails : List Test → RejectionCode → Prop
  | here {test : Test} {tests : List Test} (fails : ¬test.passes) :
      FirstFails (test :: tests) test.code
  | later {test : Test} {tests : List Test} {code : RejectionCode} (passes : test.passes)
      (fails : FirstFails tests code) : FirstFails (test :: tests) code

/-- What tests come to: no code if all of them pass, and else that of the first that fails. -/
def Decides (tests : List Test) : Option RejectionCode → Prop
  | none => ∀ test ∈ tests, test.passes
  | some code => FirstFails tests code

/-- An answer is given when it has no code. -/
theorem exists_eq_ok_iff (answer : Answer α) :
    (∃ value, answer = .ok value) ↔ rejectionCode? answer = none := by
  cases answer <;> simp [rejectionCode?]

namespace FirstFails

variable {tests : List Test} {code other : RejectionCode}

theorem exists_mem (fails : FirstFails tests code) :
    ∃ test ∈ tests, ¬test.passes ∧ test.code = code := by
  induction fails with
  | here fails => exact ⟨_, List.mem_cons_self, fails, rfl⟩
  | later passes fails inductionHypothesis =>
      obtain ⟨test, member, rest⟩ := inductionHypothesis
      exact ⟨test, List.mem_cons_of_mem _ member, rest⟩

theorem unique (first : FirstFails tests code) (second : FirstFails tests other) :
    code = other := by
  induction first with
  | here fails =>
      cases second with
      | here => rfl
      | later passes => exact absurd passes fails
  | later passes fails inductionHypothesis =>
      cases second with
      | here notPasses => exact absurd passes notPasses
      | later _ rest => exact inductionHypothesis rest

theorem ne_internal (fails : FirstFails tests code)
    (expected : ∀ test ∈ tests, test.code ≠ .internal) : code ≠ .internal := by
  obtain ⟨test, member, -, rfl⟩ := fails.exists_mem
  exact expected test member

theorem append (fails : FirstFails tests code) (more : List Test) :
    FirstFails (tests ++ more) code := by
  induction fails with
  | here fails => exact .here fails
  | later passes _ inductionHypothesis => exact .later passes inductionHypothesis

end FirstFails

namespace Decides

variable {test : Test} {tests early later : List Test} {verdict : Option RejectionCode}

theorem pass (passes : test.passes) (rest : Decides tests verdict) :
    Decides (test :: tests) verdict := by
  cases verdict with
  | none => exact List.forall_mem_cons.mpr ⟨passes, rest⟩
  | some code => exact .later passes rest

theorem append (passed : Decides early none) (rest : Decides later verdict) :
    Decides (early ++ later) verdict := by
  induction early with
  | nil => exact rest
  | cons test early inductionHypothesis =>
      obtain ⟨passes, others⟩ := List.forall_mem_cons.mp passed
      exact pass passes (inductionHypothesis others)

/-- Tests come to one verdict. -/
theorem eq_iff (decides : Decides tests verdict) (other : Option RejectionCode) :
    verdict = other ↔ Decides tests other := by
  constructor
  · rintro rfl
    exact decides
  · intro also
    cases verdict with
    | none =>
        cases other with
        | none => rfl
        | some code =>
            obtain ⟨test, member, fails, -⟩ := FirstFails.exists_mem also
            exact absurd (decides test member) fails
    | some code =>
        cases other with
        | none =>
            obtain ⟨test, member, fails, -⟩ := FirstFails.exists_mem decides
            exact absurd (also test member) fails
        | some other => exact congrArg some (FirstFails.unique decides also)

/-- One check after the other comes to what the tests of both come to. -/
theorem bind {first : Answer α} {next : α → Answer β}
    (decides : Decides early (rejectionCode? first))
    (rest : ∀ value, first = .ok value → Decides later (rejectionCode? (next value))) :
    Decides (early ++ later) (rejectionCode? (first >>= next)) := by
  cases first with
  | error rejection => exact FirstFails.append decides later
  | ok value => exact append decides (rest value rfl)

/-- A record that has to be there, if it can be read. -/
theorem found (message : String) {read : Except Fault (Option α)}
    (cases : read = .ok none ∨ ∃ record, read = .ok (some record)) :
    Decides [⟨∃ record, read = .ok (some record) ∧ True, .notFound⟩]
      (rejectionCode? (found message read)) := by
  rcases cases with rfl | ⟨record, rfl⟩
  · exact .here (by simp)
  · exact List.forall_mem_singleton.mpr ⟨record, rfl, trivial⟩

/-- A condition on what was found. -/
theorem accept_if {condition : Prop} [Decidable condition] (same : test.passes ↔ condition)
    (value : α) (message : String) :
    Decides [test]
      (rejectionCode? (if condition then .ok value else .error ⟨test.code, message⟩)) := by
  by_cases holds : condition
  · rw [if_pos holds]
    exact List.forall_mem_singleton.mpr (same.mpr holds)
  · rw [if_neg holds]
    exact .here (mt same.mp holds)

/-- A condition that must not hold of what was found. -/
theorem reject_if {condition : Prop} [Decidable condition] (differs : test.passes ↔ ¬condition)
    (value : α) (message : String) :
    Decides [test]
      (rejectionCode? (if condition then .error ⟨test.code, message⟩ else .ok value)) := by
  rw [← ite_not]
  exact accept_if differs value message

/-- The tests of entries, one entry after the other. -/
theorem checkAll {check : α → Answer Unit} {testsOf : α → List Test} {entries : List α}
    (decides : ∀ entry ∈ entries, Decides (testsOf entry) (rejectionCode? (check entry))) :
    Decides (entries.flatMap testsOf) (rejectionCode? (checkAll check entries)) := by
  induction entries with
  | nil => exact List.forall_mem_nil _
  | cons entry entries inductionHypothesis =>
      obtain ⟨first, rest⟩ := List.forall_mem_cons.mp decides
      rw [List.flatMap_cons]
      exact bind first fun _ _ => inductionHypothesis rest

/-- The test of a request that has to have entries. -/
theorem requireSome (message : String) (entries : List α) :
    Decides [⟨entries ≠ [], .validation⟩] (rejectionCode? (requireSome message entries)) := by
  cases entries with
  | nil => exact .here (not_not.mpr rfl)
  | cons entry entries => exact List.forall_mem_singleton.mpr (List.cons_ne_nil _ _)

end Decides

/-! ### The tests of each check -/

/-- A shipment to delete is there, and new. -/
def shipmentTests (database : Database) (id : String) : List Test :=
  [⟨database.HasShipment id fun _ => True, .notFound⟩,
    ⟨database.HasShipment id fun shipment => shipment.status = .new, .validation⟩]

/-- A requisition to delete is there, and a draft. -/
def requisitionTests (database : Database) (id : String) : List Test :=
  [⟨database.HasRequisition id fun _ => True, .notFound⟩,
    ⟨database.HasRequisition id fun requisition => requisition.status = .draft, .validation⟩]

/-- A line to edit is there, belongs to the shipment that is named with it, and this shipment is
not locked. -/
def editTests (database : Database) (id : String) (shipmentId? : Option String) : List Test :=
  [⟨database.HasLine id fun _ => True, .notFound⟩,
    ⟨database.HasLine id fun line => shipmentId? = some line.shipmentId, .validation⟩,
    ⟨database.HasLine id fun line => database.HasShipment line.shipmentId fun shipment =>
      shipment.linesLocked = false, .forbidden⟩]

/-- A line to delete is named with a shipment, may be edited, and is a service or stock of the
kind that its shipment holds. -/
def lineTests (database : Database) (target : Target) : List Test :=
  ⟨target.parentId ≠ none, .validation⟩ ::
    (editTests database target.id target.parentId ++
      [⟨database.HasLine target.id fun line => database.HasShipment line.shipmentId fun shipment =>
        line.isService = true ∨ line.kind = shipment.direction.stockKind, .validation⟩])

/-- A pack count is finite and not below zero, and its line may be edited and is stock. -/
def countTests (database : Database) (update : PackUpdate) : List Test :=
  ⟨update.packs.isFinite = true ∧ update.packs.isBelowZero = false, .validation⟩ ::
    (editTests database update.id (some update.shipmentId) ++
      [⟨database.HasLine update.id fun line => line.isService = false, .validation⟩])

variable {database : Database}

/-- No test of a line to edit is a fault of the service, if one more test before and one more
after it are none. -/
theorem ne_internal_editTests (id : String) (shipmentId? : Option String) {first last : Test}
    (before : first.code ≠ .internal) (after : last.code ≠ .internal) :
    ∀ test ∈ first :: (editTests database id shipmentId? ++ [last]), test.code ≠ .internal := by
  have edit : ∀ test ∈ editTests database id shipmentId?, test.code ≠ .internal := by
    simp [editTests]
  refine List.forall_mem_cons.mpr ⟨before, List.forall_mem_append.mpr ⟨edit, ?_⟩⟩
  exact List.forall_mem_singleton.mpr after

/-- No test of a request is a fault of the service if no test of an entry is. -/
theorem ne_internal_entries {testsOf : α → List Test}
    (each : ∀ entry, ∀ test ∈ testsOf entry, test.code ≠ .internal) (entries : List α) :
    ∀ test ∈ ⟨entries ≠ [], .validation⟩ :: entries.flatMap testsOf, test.code ≠ .internal :=
  List.forall_mem_cons.mpr ⟨RejectionCode.noConfusion,
    List.forall_mem_flatMap.mpr fun entry _ => each entry⟩

theorem decides_checkShipmentDeletion (intact : database.Intact) (id : String) :
    Decides (shipmentTests database id) (rejectionCode? (checkShipmentDeletion database id)) := by
  refine Decides.bind (.found _ (intact.shipmentById_cases id)) ?_
  intro shipment found
  exact .accept_if (hasShipment_iff ((found_eq_ok ..).mp found) _) _ _

theorem decides_checkRequisitionDeletion (intact : database.Intact) (id : String) :
    Decides (requisitionTests database id)
      (rejectionCode? (checkRequisitionDeletion database id)) := by
  refine Decides.bind (.found _ (intact.requisitionById_cases id)) ?_
  intro requisition found
  exact .accept_if (hasRequisition_iff ((found_eq_ok ..).mp found) _) _ _

theorem decides_editableLine (clear : database.Clear) (id shipmentId : String) :
    Decides (editTests database id (some shipmentId))
      (rejectionCode? (editableLine database id shipmentId)) := by
  refine Decides.bind (.found _ (clear.lineById_cases id)) ?_
  intro line found
  have stored := (found_eq_ok ..).mp found
  by_cases mine : line.shipmentId = shipmentId
  · refine .pass ((hasLine_iff stored _).mpr (congrArg some mine.symm)) ?_
    rw [if_neg (not_not.mpr mine)]
    -- The shipment of a stored line is always found, so the lock is all there is to test.
    obtain ⟨shipment, owner⟩ := clear.shipmentById_of_line stored
    rw [(found_eq_ok ..).mpr owner]
    refine Decides.reject_if ?_ _ _
    rw [Bool.not_eq_true]
    exact (hasLine_iff stored _).trans (hasShipment_iff owner _)
  · rw [if_pos mine]
    refine .here (mt (hasLine_iff stored _).mp ?_)
    exact fun same => mine (Option.some.inj same).symm

theorem decides_checkLineDeletion (clear : database.Clear) (target : Target) :
    Decides (lineTests database target) (rejectionCode? (checkLineDeletion database target)) := by
  rw [checkLineDeletion, lineTests, parentOf]
  cases parent : target.parentId with
  | none => exact .here (not_not.mpr rfl)
  | some shipmentId =>
      refine .pass (Option.some_ne_none _) ?_
      show Decides _ (rejectionCode? (editableLine database target.id shipmentId >>= _))
      refine .bind (decides_editableLine clear target.id shipmentId) ?_
      rintro ⟨line, shipment⟩ editable
      obtain ⟨stored, rfl, owner, -⟩ := (editableLine_eq_ok ..).mp editable
      refine .accept_if ?_ _ _
      rw [Bool.or_eq_true, decide_eq_true_eq]
      exact (hasLine_iff stored _).trans (hasShipment_iff owner _)

theorem decides_checkPackUpdate (clear : database.Clear) (update : PackUpdate) :
    Decides (countTests database update) (rejectionCode? (checkPackUpdate database update)) := by
  rw [checkPackUpdate, countTests]
  by_cases count : update.packs.isFinite = true ∧ update.packs.isBelowZero = false
  · refine .pass count ?_
    rw [if_neg (by simp [count])]
    refine Decides.bind (decides_editableLine clear update.id update.shipmentId) ?_
    rintro ⟨line, shipment⟩ editable
    obtain ⟨stored, -⟩ := (editableLine_eq_ok ..).mp editable
    refine Decides.reject_if ?_ _ _
    rw [Bool.not_eq_true]
    exact hasLine_iff stored _
  · have bad : (!update.packs.isFinite || update.packs.isBelowZero) = true := by
      cases finite : update.packs.isFinite <;> simp_all
    rw [if_pos bad]
    exact .here count

/-! ### Requests -/

section Requests

variable {after : Database} {checked : Answer Unit} {batch : Database × Except Fault Nat}
  {rejection : Fault → Rejection} {total : Nat}

/-- A request that is done when its checks pass is done, or is turned down as its checks are and
changes nothing. -/
theorem runChecked_cases
    (goes : checked = .ok () → runChecked database checked batch rejection = (after, .ok total)) :
    (checked = .ok () ∧ runChecked database checked batch rejection = (after, .ok total)) ∨
      ∃ rejected, checked = .error rejected ∧
        runChecked database checked batch rejection = (database, .error rejected) := by
  cases checked with
  | error rejected => exact .inr ⟨rejected, rfl, rfl⟩
  | ok accepted => exact .inl ⟨rfl, goes rfl⟩

/-- The batch of a request that is done went through. -/
theorem batch_of_runChecked
    (done : runChecked database (.ok ()) batch rejection = (after, .ok total)) :
    batch = (after, .ok total) := by
  obtain ⟨left, answer⟩ := batch
  cases answer with
  | ok count =>
      cases done
      rfl
  | error fault => cases done

/-- The answer to a request that tests decide. -/
structure Answers (tests : List Test) (database : Database) (ran : Database × Answer Nat) :
    Prop where
  granted : (∃ count, ran.2 = .ok count) ↔ ∀ test ∈ tests, test.passes
  turnedDown : ∀ code, rejectionCode? ran.2 = some code ↔ FirstFails tests code
  notInternal : rejectionCode? ran.2 ≠ some .internal
  unchanged : ∀ rejection, ran.2 = .error rejection → ran.1 = database

theorem Answers.of_cases {tests : List Test} {ran : Database × Answer Nat}
    (decides : Decides tests (rejectionCode? checked))
    (expected : ∀ test ∈ tests, test.code ≠ .internal)
    (cases : (checked = .ok () ∧ ran = (after, .ok total)) ∨
      ∃ rejected, checked = .error rejected ∧ ran = (database, .error rejected)) :
    Answers tests database ran := by
  have same : rejectionCode? checked = rejectionCode? ran.2 := by
    rcases cases with ⟨rfl, rfl⟩ | ⟨rejected, rfl, rfl⟩ <;> rfl
  rw [same] at decides
  refine ⟨(exists_eq_ok_iff ran.2).trans (decides.eq_iff none),
    fun code => decides.eq_iff (some code), ?_, ?_⟩
  · intro internal
    exact ((decides.eq_iff _).mp internal).ne_internal expected rfl
  · intro rejection answered
    rcases cases with ⟨-, rfl⟩ | ⟨rejected, -, rfl⟩
    · cases answered
    · rfl

end Requests

/-! ### Records of every kind -/

namespace MixedRecords

/-- Stock of both kinds and a service in a new inbound shipment, a service in a verified one, and
a draft. -/
def writes : List Write :=
  [.createShipment "a" .epoch .inbound "Clinic",
    .createShipment "b" .epoch .outbound "Ward",
    .addLine "c" "a" ⟨"g", "G", "Gauze"⟩ (.stockIn ⟨none, none, 1, .zero⟩ .zero),
    .addLine "d" "a" ⟨"g", "G", "Gauze"⟩ (.stockOut "c" ⟨none, none, 1, .zero⟩ .zero),
    .addLine "e" "b" ⟨"g", "G", "Gauze"⟩ (.service .zero (some "early")),
    .addLine "h" "a" ⟨"g", "G", "Gauze"⟩ (.service .zero none),
    .setShipmentStatus "b" .verified,
    .createRequisition "f" .epoch "Ward"]

def store : Database := empty.writeAll writes

theorem numeric_writes : ∀ write ∈ writes, write.IsNumeric := by
  have zero : Decimal.Binary64.zero.isNaN = false := by decide
  simp only [writes, List.forall_mem_cons]
  exact ⟨trivial, trivial, ⟨zero, zero⟩, ⟨zero, zero⟩, zero, zero, trivial, trivial,
    List.forall_mem_nil _⟩

theorem numbersFit_store : store.NumbersFit := numbersFit_writeAll (by decide)

end MixedRecords

end Service

end Depot
