import Depot.Proofs.Database.Records
import Depot.Service.Basic

/-!
Contract: the requests that the service grants.

The check of an entry says what is stored about the record that it names. On a sound
database that is enough for the batch to go through, so that a request whose entries pass
their checks is granted as a whole, and the database afterwards is known.

Owns: what checks say, and requests that are granted.
Does not own: the batches (`Depot.Proofs.Database.Batches`).
-/

namespace Depot

open Database

namespace Service

variable {α : Type}

/-! ### What checks say -/

theorem checkAll_eq_ok (check : α → Answer Unit) (entries : List α) :
    checkAll check entries = .ok () ↔ ∀ entry ∈ entries, check entry = .ok () := by
  induction entries with
  | nil => simp [checkAll]
  | cons entry entries inductionHypothesis =>
      rw [checkAll, bind_eq_ok]
      simp only [inductionHypothesis, List.forall_mem_cons]
      constructor
      · rintro ⟨_, first, rest⟩
        exact ⟨first, rest⟩
      · rintro ⟨first, rest⟩
        exact ⟨(), first, rest⟩

theorem requireSome_eq_ok (message : String) (entries : List α) :
    requireSome message entries = .ok () ↔ entries ≠ [] := by
  cases entries <;> simp [requireSome]

/-- A request is accepted when it has entries and all of their checks pass. -/
theorem requireSome_checkAll_eq_ok {β : Type} (message : String) (entries : List α)
    (check : β → Answer Unit) (names : List β) :
    (do requireSome message entries; checkAll check names) = .ok () ↔
      entries ≠ [] ∧ ∀ name ∈ names, check name = .ok () := by
  rw [bind_eq_ok, ← checkAll_eq_ok, ← requireSome_eq_ok message]
  constructor
  · rintro ⟨_, some, passed⟩
    exact ⟨some, passed⟩
  · rintro ⟨some, passed⟩
    exact ⟨(), some, passed⟩

theorem found_eq_ok (message : String) (read : Except Fault (Option α)) (record : α) :
    found message read = .ok record ↔ read = .ok (some record) := by
  unfold found
  cases read with
  | error fault => simp [readFrom, bind, Except.bind]
  | ok record? => cases record? <;> simp [readFrom, bind, Except.bind]

/-- A line that may be edited is stored, belongs to the shipment, and is not locked. -/
theorem editableLine_eq_ok (database : Database) (id shipmentId : String) (line : Line)
    (shipment : Shipment) :
    editableLine database id shipmentId = .ok (line, shipment) ↔
      database.lineById id = .ok (some line) ∧ line.shipmentId = shipmentId ∧
        database.shipmentById shipmentId = .ok (some shipment) ∧
        shipment.linesLocked = false := by
  rw [editableLine, bind_eq_ok]
  simp only [found_eq_ok]
  constructor
  · rintro ⟨other, stored, rest⟩
    by_cases mine : other.shipmentId = shipmentId
    · rw [if_neg (not_not.mpr mine), bind_eq_ok] at rest
      obtain ⟨owner, owned, rest⟩ := rest
      rw [found_eq_ok, mine] at owned
      cases locked : owner.linesLocked with
      | true => simp [locked] at rest
      | false =>
          simp only [locked, Bool.false_eq_true, ↓reduceIte, Except.ok.injEq, Prod.mk.injEq] at rest
          obtain ⟨rfl, rfl⟩ := rest
          exact ⟨stored, mine, owned, locked⟩
    · simp [mine] at rest
  · rintro ⟨stored, mine, owned, unlocked⟩
    refine ⟨line, stored, ?_⟩
    rw [if_neg (not_not.mpr mine), bind_eq_ok]
    refine ⟨shipment, ?_, ?_⟩
    · rw [found_eq_ok, mine]
      exact owned
    · simp [unlocked]

theorem parentOf_eq_ok (target : Target) (shipmentId : String) :
    parentOf target = .ok shipmentId ↔ target.parentId = some shipmentId := by
  unfold parentOf
  cases target.parentId <;> simp

/-- A target may be deleted when it names a line that may be edited and is a service or of
the kind that its shipment holds. -/
theorem checkLineDeletion_eq_ok (database : Database) (target : Target) :
    checkLineDeletion database target = .ok () ↔
      ∃ shipmentId line shipment, target.parentId = some shipmentId ∧
        editableLine database target.id shipmentId = .ok (line, shipment) ∧
        (line.isService = true ∨ line.kind = shipment.direction.stockKind) := by
  simp only [checkLineDeletion, bind_eq_ok, parentOf_eq_ok, Prod.exists, Bool.or_eq_true,
    decide_eq_true_eq]
  constructor
  · rintro ⟨shipmentId, parent, line, shipment, editable, granted⟩
    split at granted
    next fits => exact ⟨shipmentId, line, shipment, parent, editable, fits⟩
    next => cases granted
  · rintro ⟨shipmentId, line, shipment, parent, editable, fits⟩
    exact ⟨shipmentId, parent, line, shipment, editable, if_pos fits⟩

theorem checkPackUpdate_eq_ok (database : Database) (update : PackUpdate) :
    checkPackUpdate database update = .ok () ↔
      update.packs.isFinite = true ∧ update.packs.isBelowZero = false ∧
        ∃ line shipment,
          editableLine database update.id update.shipmentId = .ok (line, shipment) ∧
          line.isService = false := by
  rw [checkPackUpdate]
  cases finite : update.packs.isFinite with
  | false => simp
  | true =>
      cases below : update.packs.isBelowZero with
      | true => simp
      | false =>
          simp only [Bool.not_true, Bool.or_false, Bool.false_eq_true, ↓reduceIte, bind_eq_ok,
            Prod.exists, true_and]
          refine exists_congr fun line => exists_congr fun shipment => and_congr_right fun _ => ?_
          cases line.isService <;> simp

theorem checkShipmentDeletion_eq_ok (database : Database) (id : String) :
    checkShipmentDeletion database id = .ok () ↔
      ∃ shipment, database.shipmentById id = .ok (some shipment) ∧ shipment.status = .new := by
  simp only [checkShipmentDeletion, bind_eq_ok, found_eq_ok]
  refine exists_congr fun shipment => and_congr_right fun _ => ?_
  by_cases new : shipment.status = .new <;> simp [new]

theorem checkRequisitionDeletion_eq_ok (database : Database) (id : String) :
    checkRequisitionDeletion database id = .ok () ↔
      ∃ requisition, database.requisitionById id = .ok (some requisition) ∧
        requisition.status = .draft := by
  simp only [checkRequisitionDeletion, bind_eq_ok, found_eq_ok]
  refine exists_congr fun requisition => and_congr_right fun _ => ?_
  by_cases draft : requisition.status = .draft <;> simp [draft]

end Service

namespace Database.Sound

variable {database : Database}

/-- A line that may be edited may be deleted. -/
theorem canDeleteLine (sound : database.Sound) {id shipmentId : String} {line : Line}
    {shipment : Shipment}
    (editable : Service.editableLine database id shipmentId = .ok (line, shipment)) :
    database.CanDeleteLine id := by
  obtain ⟨stored, rfl, owned, unlocked⟩ := (Service.editableLine_eq_ok ..).mp editable
  obtain ⟨row, member, named, reads⟩ := (sound.lineById_eq_ok ..).mp stored
  obtain ⟨owner, ownerMember, ownerNamed, ownerReads⟩ := (sound.shipmentById_eq_ok ..).mp owned
  obtain ⟨-, belongs, -⟩ := (sound.lines row member).of_read reads
  have found : database.lineRow? id = some row :=
    (find?_eq_some_iff _ sound.lineIds _ _).mpr ⟨member, named⟩
  have foundOwner := (find?_eq_some_iff _ sound.shipmentIds _ _).mpr ⟨ownerMember, ownerNamed⟩
  refine ⟨owner, shipment, ?_, ownerReads, unlocked⟩
  rw [ownerRow?, found, Option.bind_some, belongs]
  simpa only [Cell.agrees_text] using foundOwner

/-- A line of stock that may be edited may be given another pack count. -/
theorem canSetPacks (sound : database.Sound) {id shipmentId : String} {line : Line}
    {shipment : Shipment}
    (editable : Service.editableLine database id shipmentId = .ok (line, shipment))
    (stock : line.isService = false) (packs : Decimal.Binary64) :
    database.CanSetPacks (id, packs) := by
  obtain ⟨stored, -, -, -⟩ := (Service.editableLine_eq_ok ..).mp editable
  obtain ⟨row, member, named, reads⟩ := (sound.lineById_eq_ok ..).mp stored
  obtain ⟨-, -, written⟩ := (sound.lines row member).of_read reads
  have found : database.lineRow? id = some row :=
    (find?_eq_some_iff _ sound.lineIds _ _).mpr ⟨member, named⟩
  rw [CanSetPacks, found, Option.any_some, isStockRow_of_kind written]
  simpa [Line.isService] using stock

theorem canDeleteShipment (sound : database.Sound) {id : String} {shipment : Shipment}
    (stored : database.shipmentById id = .ok (some shipment)) (new : shipment.status = .new) :
    database.CanDeleteShipment id := by
  obtain ⟨row, member, named, reads⟩ := (sound.shipmentById_eq_ok ..).mp stored
  obtain ⟨-, -, written⟩ := (sound.shipments row member).of_read reads
  rw [new] at written
  exact ⟨row, (find?_eq_some_iff _ sound.shipmentIds _ _).mpr ⟨member, named⟩, written⟩

theorem canDeleteRequisition (sound : database.Sound) {id : String} {requisition : Requisition}
    (stored : database.requisitionById id = .ok (some requisition))
    (draft : requisition.status = .draft) : database.CanDeleteRequisition id := by
  obtain ⟨row, member, named, reads⟩ := (sound.requisitionById_eq_ok ..).mp stored
  obtain ⟨-, written⟩ := (sound.requisitions row member).of_read reads
  rw [draft] at written
  exact ⟨row, (find?_eq_some_iff _ sound.requisitionIds _ _).mpr ⟨member, named⟩, written⟩

end Database.Sound

namespace Service

/-! ### Requests that are granted -/

theorem nodup_eraseDups (names : List String) : names.eraseDups.Nodup := by
  induction length : names.length using Nat.strongRecOn generalizing names with
  | ind length' inductionHypothesis =>
      cases names with
      | nil => exact List.nodup_nil
      | cons name names =>
          rw [List.eraseDups_cons]
          have shorter : (names.filter fun other => !other == name).length < length' := by
            rw [← length]
            exact Nat.lt_succ_of_le (List.length_filter_le _ _)
          refine List.nodup_cons.mpr ⟨?_, inductionHypothesis _ shorter _ rfl⟩
          simp [List.mem_eraseDups]

theorem eraseDups_of_nodup : ∀ {names : List String}, names.Nodup → names.eraseDups = names
  | [], _ => rfl
  | name :: names, nodup => by
      obtain ⟨fresh, rest⟩ := List.nodup_cons.mp nodup
      have others : (names.filter fun other => !other == name) = names := by
        refine List.filter_eq_self.mpr ?_
        intro other member
        simp only [Bool.not_eq_true', beq_eq_false_iff_ne, ne_eq]
        rintro rfl
        exact fresh member
      rw [List.eraseDups_cons, others, eraseDups_of_nodup rest]

theorem mem_distinctIds (targets : List Target) (id : String) :
    id ∈ distinctIds targets ↔ ∃ target ∈ targets, target.id = id := by
  simp [distinctIds, List.mem_eraseDups]

theorem forall_mem_distinctIds {targets : List Target} {good : String → Prop} :
    (∀ id ∈ distinctIds targets, good id) ↔ ∀ target ∈ targets, good target.id := by
  simp [mem_distinctIds]

theorem checkLineDeletions_eq_ok (database : Database) (targets : List Target) :
    checkLineDeletions database targets = .ok () ↔
      targets ≠ [] ∧ ∀ target ∈ targets, checkLineDeletion database target = .ok () :=
  requireSome_checkAll_eq_ok ..

theorem checkPackUpdates_eq_ok (database : Database) (updates : List PackUpdate) :
    checkPackUpdates database updates = .ok () ↔
      updates ≠ [] ∧ ∀ update ∈ updates, checkPackUpdate database update = .ok () :=
  requireSome_checkAll_eq_ok ..

theorem checkShipmentDeletions_eq_ok (database : Database) (targets : List Target) :
    checkShipmentDeletions database targets = .ok () ↔
      targets ≠ [] ∧ ∀ target ∈ targets, checkShipmentDeletion database target.id = .ok () :=
  (requireSome_checkAll_eq_ok ..).trans (and_congr_right fun _ => forall_mem_distinctIds)

theorem checkRequisitionDeletions_eq_ok (database : Database) (targets : List Target) :
    checkRequisitionDeletions database targets = .ok () ↔
      targets ≠ [] ∧
        ∀ target ∈ targets, checkRequisitionDeletion database target.id = .ok () :=
  (requireSome_checkAll_eq_ok ..).trans (and_congr_right fun _ => forall_mem_distinctIds)

theorem runChecked_ok {database after : Database} {count : Nat}
    {batch : Database × Except Fault Nat} (ran : batch = (after, .ok count))
    (rejection : Fault → Rejection) :
    runChecked database (.ok ()) batch rejection = (after, .ok count) := by
  rw [ran]
  rfl

/-- Lines whose targets pass their checks are deleted. -/
theorem deleteLines_eq_ok {database : Database} (sound : database.Sound) {targets : List Target}
    (some : targets ≠ [])
    (checked : ∀ target ∈ targets, checkLineDeletion database target = .ok ()) :
    deleteLines database targets =
      (database.withoutLines (distinctIds targets), .ok (distinctIds targets).length) := by
  have accepted := (checkLineDeletions_eq_ok database targets).mpr ⟨some, checked⟩
  rw [deleteLines, accepted]
  refine runChecked_ok (Database.deleteLines_eq_ok sound.isOpen (nodup_eraseDups _) ?_) _
  refine forall_mem_distinctIds.mpr ?_
  intro target member
  obtain ⟨shipmentId, line, shipment, -, editable, -⟩ :=
    (checkLineDeletion_eq_ok database target).mp (checked target member)
  exact sound.canDeleteLine editable

/-- Pack counts that pass their checks are stored. -/
theorem updateLines_eq_ok {database : Database} (sound : database.Sound)
    {updates : List PackUpdate} (some : updates ≠ [])
    (checked : ∀ update ∈ updates, checkPackUpdate database update = .ok ()) :
    updateLines database updates =
      (database.withAllPacks (updates.map fun update => (update.id, update.packs)),
        .ok updates.length) := by
  have accepted := (checkPackUpdates_eq_ok database updates).mpr ⟨some, checked⟩
  rw [updateLines, accepted]
  refine runChecked_ok ?_ _
  rw [Database.updatePacks_eq_ok sound.isOpen, List.length_map]
  refine List.forall_mem_map.mpr ?_
  intro update member
  obtain ⟨-, -, line, shipment, editable, stock⟩ :=
    (checkPackUpdate_eq_ok database update).mp (checked update member)
  exact sound.canSetPacks editable stock _

/-- New shipments are deleted. -/
theorem deleteShipments_eq_ok {database : Database} (sound : database.Sound)
    {targets : List Target} (some : targets ≠ [])
    (checked : ∀ target ∈ targets, checkShipmentDeletion database target.id = .ok ()) :
    deleteShipments database targets =
      (database.withoutShipments (distinctIds targets), .ok (distinctIds targets).length) := by
  have accepted := (checkShipmentDeletions_eq_ok database targets).mpr ⟨some, checked⟩
  rw [deleteShipments, accepted]
  refine runChecked_ok (Database.deleteShipments_eq_ok sound.isOpen (nodup_eraseDups _) ?_) _
  refine forall_mem_distinctIds.mpr ?_
  intro target member
  obtain ⟨shipment, stored, new⟩ :=
    (checkShipmentDeletion_eq_ok database target.id).mp (checked target member)
  exact sound.canDeleteShipment stored new

/-- Drafts are deleted. -/
theorem deleteRequisitions_eq_ok {database : Database} (sound : database.Sound)
    {targets : List Target} (some : targets ≠ [])
    (checked : ∀ target ∈ targets, checkRequisitionDeletion database target.id = .ok ()) :
    deleteRequisitions database targets =
      (database.withoutRequisitions (distinctIds targets), .ok (distinctIds targets).length) := by
  have accepted := (checkRequisitionDeletions_eq_ok database targets).mpr ⟨some, checked⟩
  rw [deleteRequisitions, accepted]
  refine runChecked_ok (Database.deleteRequisitions_eq_ok sound.isOpen (nodup_eraseDups _) ?_) _
  refine forall_mem_distinctIds.mpr ?_
  intro target member
  obtain ⟨requisition, stored, draft⟩ :=
    (checkRequisitionDeletion_eq_ok database target.id).mp (checked target member)
  exact sound.canDeleteRequisition stored draft

/-! ### When requests are granted -/

/-- If passed checks let the batch through, the request is granted when its checks pass. -/
theorem granted_iff {database : Database} {checked : Answer Unit}
    {batch : Database × Except Fault Nat} {rejection : Fault → Rejection} {total count : Nat}
    (goes : checked = .ok () → (runChecked database checked batch rejection).2 = .ok total) :
    (runChecked database checked batch rejection).2 = .ok count ↔
      checked = .ok () ∧ total = count := by
  cases checked with
  | error rejected => simp [runChecked]
  | ok accepted =>
      rw [goes rfl]
      simp

theorem deleteLines_granted_iff {database : Database} (sound : database.Sound)
    (targets : List Target) (count : Nat) :
    (deleteLines database targets).2 = .ok count ↔
      checkLineDeletions database targets = .ok () ∧ (distinctIds targets).length = count := by
  refine granted_iff fun passed => ?_
  obtain ⟨some, checked⟩ := (checkLineDeletions_eq_ok database targets).mp passed
  exact congrArg Prod.snd (deleteLines_eq_ok sound some checked)

theorem deleteShipments_granted_iff {database : Database} (sound : database.Sound)
    (targets : List Target) (count : Nat) :
    (deleteShipments database targets).2 = .ok count ↔
      checkShipmentDeletions database targets = .ok () ∧
        (distinctIds targets).length = count := by
  refine granted_iff fun passed => ?_
  obtain ⟨some, checked⟩ := (checkShipmentDeletions_eq_ok database targets).mp passed
  exact congrArg Prod.snd (deleteShipments_eq_ok sound some checked)

theorem deleteRequisitions_granted_iff {database : Database} (sound : database.Sound)
    (targets : List Target) (count : Nat) :
    (deleteRequisitions database targets).2 = .ok count ↔
      checkRequisitionDeletions database targets = .ok () ∧
        (distinctIds targets).length = count := by
  refine granted_iff fun passed => ?_
  obtain ⟨some, checked⟩ := (checkRequisitionDeletions_eq_ok database targets).mp passed
  exact congrArg Prod.snd (deleteRequisitions_eq_ok sound some checked)

end Service

end Depot
