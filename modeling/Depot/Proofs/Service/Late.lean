import Depot.Proofs.Database.Descent
import Depot.Proofs.Service.Requests

/-!
Contract: a batch that runs later than its checks is turned down as the checks would be.

Between the checks of a request and its batch others may write. The batch looks only at
ids, and deletes as it goes; the checks look at parents and kinds as well, target by target.
For targets that passed once the two come to the same answer ever after: what the batch
does not look at cannot have changed, and one deletion is no obstacle to another.

Owns: the code of a batch against the code of the checks, on a later database.
Does not own: batches of pack counts, which look at less than their checks do.
-/

namespace Depot

open Database

namespace Service

variable {α β : Type}

/-! ### Codes -/

/-- The code of an answer that is none. -/
def rejectionCode? : Answer α → Option RejectionCode
  | .ok _ => none
  | .error rejection => some rejection.code

/-- The code that a fault of a batch is answered with. -/
def faultCode? : Except Fault α → Option RejectionCode
  | .ok _ => none
  | .error fault => some (batchRejection fault).code

theorem rejectionCode?_eq_none (answer : Answer Unit) :
    rejectionCode? answer = none ↔ answer = .ok () := by
  cases answer <;> simp [rejectionCode?]

theorem rejectionCode?_eq_some (answer : Answer α) (code : RejectionCode) :
    rejectionCode? answer = some code ↔
      ∃ rejection, answer = .error rejection ∧ rejection.code = code := by
  cases answer <;> simp [rejectionCode?]

/-- Checks one after the other have the code of the first that fails. -/
theorem rejectionCode?_checkAll (check : α → Answer Unit) (entries : List α) :
    rejectionCode? (checkAll check entries) =
      entries.findSome? fun entry => rejectionCode? (check entry) := by
  induction entries with
  | nil => rfl
  | cons entry entries inductionHypothesis =>
      rw [checkAll, List.findSome?_cons]
      cases checked : check entry with
      | error rejection => rfl
      | ok passed => exact inductionHypothesis

theorem rejectionCode?_requireSome (message : String) {entries : List α} (some : entries ≠ [])
    (rest : Answer Unit) :
    rejectionCode? (do requireSome message entries; rest) = rejectionCode? rest := by
  cases entries with
  | nil => exact absurd rfl some
  | cons entry entries => rfl

theorem findSome?_congr {left right : α → Option β} : ∀ {entries : List α},
    (∀ entry ∈ entries, left entry = right entry) → entries.findSome? left = entries.findSome? right
  | [], _ => rfl
  | entry :: entries, same => by
      rw [List.findSome?_cons, List.findSome?_cons, same entry List.mem_cons_self,
        findSome?_congr fun other member => same other (List.mem_cons_of_mem entry member)]

/-- Looking for the first name that fails, a name need not be looked at twice. -/
theorem findSome?_eraseDups (verdict : String → Option β) :
    ∀ names : List String, names.eraseDups.findSome? verdict = names.findSome? verdict := by
  intro names
  induction length : names.length using Nat.strongRecOn generalizing names with
  | ind length' inductionHypothesis =>
      cases names with
      | nil => rfl
      | cons name names =>
          have shorter : (names.filter fun other => !other == name).length < length' := by
            rw [← length]
            exact Nat.lt_succ_of_le (List.length_filter_le _ _)
          rw [List.eraseDups_cons, List.findSome?_cons, List.findSome?_cons,
            inductionHypothesis _ shorter _ rfl]
          cases first : verdict name with
          | some failed => rfl
          | none =>
              -- The copies that are left out pass as the first one did.
              have skipped : ∀ others : List String,
                  (others.filter fun other => !other == name).findSome? verdict =
                    others.findSome? verdict := by
                intro others
                induction others with
                | nil => rfl
                | cons other others rest =>
                    by_cases same : other = name
                    · simp [same, first, rest]
                    · simp [same, List.findSome?_cons, rest]
              exact skipped names

/-- A batch has the code of its first entry that would be refused at the start, if its entries
differ and doing one leaves the others as they are. -/
theorem faultCode?_batch {one : Database → α → Except Fault Database}
    {change : Database → α → Database}
    (does : ∀ database item after, one database item = .ok after → after = change database item)
    (apart : ∀ database item other, item ≠ other →
      faultCode? (one (change database item) other) = faultCode? (one database other))
    {items : List α} (distinct : items.Nodup) (database : Database) :
    faultCode? (database.batch one items) =
      items.findSome? fun item => faultCode? (one database item) := by
  induction items generalizing database with
  | nil => rfl
  | cons item items inductionHypothesis =>
      obtain ⟨differs, rest⟩ := List.nodup_cons.mp distinct
      rw [batch, List.findSome?_cons]
      cases first : one database item with
      | error fault => rfl
      | ok after =>
          show faultCode? (after.batch one items) =
            items.findSome? fun other => faultCode? (one database other)
          rw [does database item after first, inductionHypothesis rest (change database item)]
          have same : ∀ other ∈ items,
              faultCode? (one (change database item) other) = faultCode? (one database other) := by
            intro other member
            refine apart database item other ?_
            rintro rfl
            exact differs member
          exact findSome?_congr same

theorem faultCode?_runBatch {database : Database} (isOpen : database.isOpen = true)
    {one : Database → α → Except Fault Database} {change : Database → α → Database}
    (does : ∀ database item after, one database item = .ok after → after = change database item)
    (apart : ∀ database item other, item ≠ other →
      faultCode? (one (change database item) other) = faultCode? (one database other))
    {items : List α} (distinct : items.Nodup) :
    faultCode? (database.runBatch one items).2 =
      items.findSome? fun item => faultCode? (one database item) := by
  rw [← faultCode?_batch does apart distinct, runBatch, changing, if_pos isOpen]
  cases database.batch one items <;> rfl

/-- The batch is answered as the checks are. -/
structure Alike (database : Database) (checked : Answer Unit)
    (batch : Database × Except Fault Nat) : Prop where
  accepts : (∃ count, batch.2 = .ok count) ↔ checked = .ok ()
  rejects : ∀ fault, batch.2 = .error fault → batch.1 = database ∧
    ∃ rejection, checked = .error rejection ∧ rejection.code = (batchRejection fault).code

theorem Alike.of_code {database after : Database} {checked : Answer Unit}
    {batch : Database × Except Fault Nat} {count : Nat}
    (cases : batch = (after, .ok count) ∨ ∃ fault, batch = (database, .error fault))
    (same : faultCode? batch.2 = rejectionCode? checked) : Alike database checked batch := by
  rcases cases with rfl | ⟨fault, rfl⟩
  · have passed : checked = .ok () := (rejectionCode?_eq_none checked).mp same.symm
    exact ⟨⟨fun _ => passed, fun _ => ⟨count, rfl⟩⟩, fun fault refused => by cases refused⟩
  · obtain ⟨rejection, refused, code⟩ := (rejectionCode?_eq_some checked _).mp same.symm
    refine ⟨⟨?_, ?_⟩, ?_⟩
    · rintro ⟨count, accepted⟩
      cases accepted
    · intro passed
      rw [passed] at refused
      cases refused
    · rintro _ ⟨⟩
      exact ⟨rfl, rejection, refused, code⟩

/-! ### One target -/

end Service

namespace Database

variable {early later : Database} {made : List (Entity × String)}

/-- A later database, where no id of the earlier one was drawn again. -/
structure Follows (early later : Database) (made : List (Entity × String)) : Prop where
  soundBefore : early.Sound
  soundAfter : later.Sound
  owned : later.Owned
  descends : Descends early later made
  oldShipments : ∀ row ∈ early.shipments, ¬IsOneOf made .shipment row.id
  oldLines : ∀ row ∈ early.lines, ¬IsOneOf made .line row.id
  oldRequisitions : ∀ row ∈ early.requisitions, ¬IsOneOf made .requisition row.id

namespace Follows

/-- A shipment that could be read is either gone or can still be read. -/
theorem shipment_reads (follows : Follows early later made) {id : String}
    {shipment : Shipment}
    (stored : early.shipmentById id = .ok (some shipment)) {row : ShipmentRow}
    (member : row ∈ later.shipments) (named : row.id = .text id) :
    ∃ status onHold, row.read = .ok { shipment with status, onHold } ∧
      row.status = .text status.word := by
  obtain ⟨first, inside, same, reads⟩ := (follows.soundBefore.shipmentById_eq_ok ..).mp stored
  have descends : first.Descends row :=
    follows.descends.shipments.descends_of_id (fun _ _ => ShipmentRow.Descends.id)
      follows.soundBefore.shipmentIds inside member (named.trans same.symm)
      (named.trans same.symm ▸ follows.oldShipments first inside)
  have sound := follows.soundAfter.shipments row member
  obtain ⟨status, onHold, read⟩ := descends.reads sound reads
  exact ⟨status, onHold, read, (sound.of_read read).2.2⟩

theorem line_reads (follows : Follows early later made) {id : String}
    {line : Line}
    (stored : early.lineById id = .ok (some line)) {row : LineRow}
    (member : row ∈ later.lines) (named : row.id = .text id) :
    ∃ changed : Line, row.read = .ok changed ∧ changed.id = line.id ∧
      changed.shipmentId = line.shipmentId ∧ changed.kind = line.kind := by
  obtain ⟨first, inside, same, reads⟩ := (follows.soundBefore.lineById_eq_ok ..).mp stored
  have descends : first.Descends row :=
    follows.descends.lines.descends_of_id (fun _ _ => LineRow.Descends.id)
      follows.soundBefore.lineIds inside member (named.trans same.symm)
      (named.trans same.symm ▸ follows.oldLines first inside)
  exact descends.reads (follows.soundBefore.lines first inside) reads

theorem requisition_reads (follows : Follows early later made) {id : String}
    {requisition : Requisition}
    (stored : early.requisitionById id = .ok (some requisition)) {row : RequisitionRow}
    (member : row ∈ later.requisitions) (named : row.id = .text id) :
    ∃ status, row.read = .ok { requisition with status } ∧ row.status = .text status.word := by
  obtain ⟨first, inside, same, reads⟩ := (follows.soundBefore.requisitionById_eq_ok ..).mp stored
  have descends : first.Descends row :=
    follows.descends.requisitions.descends_of_id (fun _ _ => RequisitionRow.Descends.id)
      follows.soundBefore.requisitionIds inside member (named.trans same.symm)
      (named.trans same.symm ▸ follows.oldRequisitions first inside)
  have sound := follows.soundAfter.requisitions row member
  obtain ⟨status, read⟩ := descends.reads sound reads
  exact ⟨status, read, (sound.of_read read).2⟩

end Follows

end Database

namespace Service

variable {early later : Database} {made : List (Entity × String)}

theorem code_deleteShipment (follows : Follows early later made) {id : String}
    (passed : checkShipmentDeletion early id = .ok ()) :
    faultCode? (later.deleteShipment id) = rejectionCode? (checkShipmentDeletion later id) := by
  obtain ⟨shipment, stored, -⟩ := (checkShipmentDeletion_eq_ok early id).mp passed
  unfold deleteShipment checkShipmentDeletion found shipmentById whenOpen
  rw [if_pos follows.soundAfter.isOpen]
  cases present : later.shipmentRow? id with
  | none => rfl
  | some row =>
      obtain ⟨member, named⟩ :=
        (find?_eq_some_iff ShipmentRow.id follows.soundAfter.shipmentIds id row).mp present
      obtain ⟨status, onHold, read, written⟩ := follows.shipment_reads stored member named
      simp only [readFirst, read, written]
      cases status <;> rfl

theorem code_deleteRequisition (follows : Follows early later made) {id : String}
    (passed : checkRequisitionDeletion early id = .ok ()) :
    faultCode? (later.deleteRequisition id) =
      rejectionCode? (checkRequisitionDeletion later id) := by
  obtain ⟨requisition, stored, -⟩ := (checkRequisitionDeletion_eq_ok early id).mp passed
  unfold deleteRequisition checkRequisitionDeletion found requisitionById whenOpen
  rw [if_pos follows.soundAfter.isOpen]
  cases present : later.requisitionRow? id with
  | none => rfl
  | some row =>
      obtain ⟨member, named⟩ :=
        (find?_eq_some_iff RequisitionRow.id follows.soundAfter.requisitionIds id row).mp present
      obtain ⟨status, read, written⟩ := follows.requisition_reads stored member named
      simp only [readFirst, read, written]
      cases status <;> rfl

/-- The check looks at the line's shipment as the batch does; the parent that the target names
and the kind of the line are what they were. -/
theorem code_deleteLine (follows : Follows early later made) {target : Target}
    (passed : checkLineDeletion early target = .ok ()) :
    faultCode? (later.deleteLine target.id) = rejectionCode? (checkLineDeletion later target) := by
  obtain ⟨shipmentId, line, shipment, parent, editable, fits⟩ :=
    (checkLineDeletion_eq_ok early target).mp passed
  obtain ⟨stored, owned, header, -⟩ := (editableLine_eq_ok ..).mp editable
  have parentOk := (parentOf_eq_ok target shipmentId).mpr parent
  rw [checkLineDeletion, parentOk, deleteLine, ownerRow?]
  show _ = rejectionCode? (editableLine later target.id shipmentId >>= _)
  cases present : later.lineRow? target.id with
  | none =>
      have missing : later.lineById target.id = .ok none := by
        rw [lineById, whenOpen, if_pos follows.soundAfter.isOpen, present]
        rfl
      rw [editableLine, missing]
      rfl
  | some row =>
      obtain ⟨member, named⟩ :=
        (find?_eq_some_iff LineRow.id follows.soundAfter.lineIds target.id row).mp present
      obtain ⟨changed, read, -, sameShipment, sameKind⟩ :=
        follows.line_reads stored member named
      have storedLater := (follows.soundAfter.lineById_eq_ok ..).mpr ⟨row, member, named, read⟩
      obtain ⟨-, belongs, -⟩ := (follows.soundAfter.lines row member).of_read read
      obtain ⟨owner, there, mine⟩ := follows.owned row member
      rw [belongs, sameShipment, owned] at mine
      obtain ⟨status, onHold, readOwner, -⟩ :=
        follows.shipment_reads header there mine
      have headerLater := (follows.soundAfter.shipmentById_eq_ok ..).mpr
        ⟨owner, there, mine, readOwner⟩
      have ownerPresent : (later.shipments.find? fun shipment =>
          shipment.id.agrees row.shipmentId) = some owner := by
        simp only [belongs, sameShipment, owned, Cell.agrees_text]
        exact (find?_eq_some_iff ShipmentRow.id follows.soundAfter.shipmentIds shipmentId
          owner).mpr ⟨there, mine⟩
      have fitsLater : (changed.isService || decide (changed.kind =
          shipment.direction.stockKind)) = true := by
        simpa [Line.isService, sameKind] using fits
      have mineLater : changed.shipmentId = shipmentId := sameShipment.trans owned
      simp only [Option.bind_some, ownerPresent, readOwner]
      cases locked : Shipment.linesLocked { shipment with status, onHold } with
      | false =>
          rw [(editableLine_eq_ok ..).mpr ⟨storedLater, mineLater, headerLater, locked⟩]
          show faultCode? (if Shipment.linesLocked { shipment with status, onHold } then _ else _) =
            rejectionCode? (if changed.isService || decide (changed.kind =
              shipment.direction.stockKind) then _ else _)
          rw [locked, if_pos fitsLater]
          rfl
      | true =>
          have refused : ∃ message, editableLine later target.id shipmentId =
              .error ⟨.forbidden, message⟩ := by
            rw [editableLine, (found_eq_ok ..).mpr storedLater]
            show ∃ message, (if changed.shipmentId ≠ shipmentId then _ else _) = _
            rw [if_neg (not_not.mpr mineLater), mineLater, (found_eq_ok ..).mpr headerLater]
            show ∃ message, (if Shipment.linesLocked { shipment with status, onHold } then _
              else _) = _
            rw [locked]
            exact ⟨_, rfl⟩
          obtain ⟨message, refused⟩ := refused
          rw [refused]
          show faultCode? (if Shipment.linesLocked { shipment with status, onHold } then _
            else _) = _
          rw [locked]
          rfl

/-! ### All targets of a request -/

/-- The check of a request has the code of its first target that fails. -/
theorem rejectionCode?_deletion {targets : List Target} (some : targets ≠ [])
    (checked : Answer Unit) :
    rejectionCode? (do requireTargets targets; checked) = rejectionCode? checked :=
  rejectionCode?_requireSome _ some checked

theorem alike_deleteShipments (follows : Follows early later made) {targets : List Target}
    (passed : checkShipmentDeletions early targets = .ok ()) :
    Alike later (checkShipmentDeletions later targets)
      (later.deleteShipments (distinctIds targets)) := by
  obtain ⟨some, each⟩ := (checkShipmentDeletions_eq_ok early targets).mp passed
  refine .of_code (deleteShipments_cases follows.soundAfter.isOpen _) ?_
  have apart : ∀ (database : Database) (id other : String), id ≠ other →
      faultCode? ((database.withoutShipment id).deleteShipment other) =
        faultCode? (database.deleteShipment other) := by
    intro database id other differs
    have kept : (database.withoutShipment id).shipmentRow? other = database.shipmentRow? other :=
      find?_filter_ne ShipmentRow.id differs database.shipments
    unfold deleteShipment
    rw [kept]
    cases database.shipmentRow? other with
    | none => rfl
    | some row =>
        simp only
        split <;> rfl
  have batch : faultCode? (later.deleteShipments (distinctIds targets)).2 =
      (distinctIds targets).findSome? fun id => faultCode? (later.deleteShipment id) :=
    faultCode?_runBatch follows.soundAfter.isOpen (fun _ _ _ => eq_of_deleteShipment) apart
      (nodup_eraseDups _)
  rw [batch, checkShipmentDeletions, rejectionCode?_deletion some, rejectionCode?_checkAll]
  refine findSome?_congr (forall_mem_distinctIds.mpr ?_)
  intro target member
  exact code_deleteShipment follows (each target member)

theorem alike_deleteRequisitions (follows : Follows early later made) {targets : List Target}
    (passed : checkRequisitionDeletions early targets = .ok ()) :
    Alike later (checkRequisitionDeletions later targets)
      (later.deleteRequisitions (distinctIds targets)) := by
  obtain ⟨some, each⟩ := (checkRequisitionDeletions_eq_ok early targets).mp passed
  refine .of_code (deleteRequisitions_cases follows.soundAfter.isOpen _) ?_
  have apart : ∀ (database : Database) (id other : String), id ≠ other →
      faultCode? ((database.withoutRequisition id).deleteRequisition other) =
        faultCode? (database.deleteRequisition other) := by
    intro database id other differs
    have kept : (database.withoutRequisition id).requisitionRow? other =
        database.requisitionRow? other :=
      find?_filter_ne RequisitionRow.id differs database.requisitions
    unfold deleteRequisition
    rw [kept]
    cases database.requisitionRow? other with
    | none => rfl
    | some row =>
        simp only
        split <;> rfl
  have batch : faultCode? (later.deleteRequisitions (distinctIds targets)).2 =
      (distinctIds targets).findSome? fun id => faultCode? (later.deleteRequisition id) :=
    faultCode?_runBatch follows.soundAfter.isOpen (fun _ _ _ => eq_of_deleteRequisition) apart
      (nodup_eraseDups _)
  rw [batch, checkRequisitionDeletions, rejectionCode?_deletion some, rejectionCode?_checkAll]
  refine findSome?_congr (forall_mem_distinctIds.mpr ?_)
  intro target member
  exact code_deleteRequisition follows (each target member)

theorem alike_deleteLines (follows : Follows early later made) {targets : List Target}
    (passed : checkLineDeletions early targets = .ok ()) :
    Alike later (checkLineDeletions later targets)
      (later.deleteLines (distinctIds targets)) := by
  obtain ⟨some, each⟩ := (checkLineDeletions_eq_ok early targets).mp passed
  refine .of_code (deleteLines_cases follows.soundAfter.isOpen _) ?_
  have apart : ∀ (database : Database) (id other : String), id ≠ other →
      faultCode? ((database.withoutLine id).deleteLine other) =
        faultCode? (database.deleteLine other) := by
    intro database id other differs
    have found : (database.withoutLine id).lineRow? other = database.lineRow? other :=
      find?_filter_ne LineRow.id differs database.lines
    have kept : (database.withoutLine id).ownerRow? other = database.ownerRow? other := by
      rw [ownerRow?, ownerRow?, found]
      rfl
    unfold deleteLine
    rw [kept]
    cases database.ownerRow? other with
    | none => rfl
    | some row =>
        cases read : row.read with
        | error fault => simp only [read]; rfl
        | ok shipment =>
            simp only [read]
            show faultCode? (if shipment.linesLocked then _ else _) =
              faultCode? (if shipment.linesLocked then _ else _)
            split <;> rfl
  -- The checks look at every target, the batch at every id once.
  have batch : faultCode? (later.deleteLines (distinctIds targets)).2 =
      (distinctIds targets).findSome? fun id => faultCode? (later.deleteLine id) :=
    faultCode?_runBatch follows.soundAfter.isOpen
      (fun _ _ _ deleted => (of_deleteLine deleted).2) apart
      (nodup_eraseDups _)
  rw [batch, checkLineDeletions, rejectionCode?_deletion some, rejectionCode?_checkAll]
  rw [distinctIds, findSome?_eraseDups, List.findSome?_map]
  refine findSome?_congr ?_
  intro target member
  exact code_deleteLine follows (each target member)

end Service

/-! ### Runs -/

namespace Database

/-- Requests for deletion whose checks passed on the earlier database are answered on the
later one as new checks would answer them. -/
structure LateAlike (early later : Database) : Prop where
  shipments : ∀ targets, Service.checkShipmentDeletions early targets = .ok () →
    Service.Alike later (Service.checkShipmentDeletions later targets)
      (later.deleteShipments (Service.distinctIds targets))
  lines : ∀ targets, Service.checkLineDeletions early targets = .ok () →
    Service.Alike later (Service.checkLineDeletions later targets)
      (later.deleteLines (Service.distinctIds targets))
  requisitions : ∀ targets, Service.checkRequisitionDeletions early targets = .ok () →
    Service.Alike later (Service.checkRequisitionDeletions later targets)
      (later.deleteRequisitions (Service.distinctIds targets))

theorem follows_writeAll {early later : List Write}
    (numeric : ∀ write ∈ early ++ later, write.IsNumeric)
    (fresh : ((early ++ later).filterMap Write.newId?).Nodup) :
    Follows (empty.writeAll early) (empty.writeAll (early ++ later))
      (later.filterMap Write.newId?) := by
  obtain ⟨numericEarly, numericLater⟩ := List.forall_mem_append.mp numeric
  have first := descends_writeAll sound_empty numericEarly
  rw [List.filterMap_append] at fresh
  have old : ∀ (entity : Entity) (cell : Cell), IsOneOf (early.filterMap Write.newId?) entity cell →
      ¬IsOneOf (later.filterMap Write.newId?) entity cell := by
    rintro entity cell ⟨id, drawn, rfl⟩ ⟨other, again, ⟨⟩⟩
    exact (List.disjoint_of_nodup_append fresh) drawn again
  refine {
    soundBefore := sound_writeAll early
    soundAfter := sound_writeAll (early ++ later)
    owned := owned_writeAll (early ++ later)
    descends := ?_, oldShipments := ?_, oldLines := ?_, oldRequisitions := ?_ }
  · rw [writeAll_append]
    exact descends_writeAll (sound_writeAll early) numericLater
  · intro row member
    rcases first.shipments row member with ⟨before, none, -⟩ | drawn
    · cases none
    · exact old _ _ drawn
  · intro row member
    rcases first.lines row member with ⟨before, none, -⟩ | drawn
    · cases none
    · exact old _ _ drawn
  · intro row member
    rcases first.requisitions row member with ⟨before, none, -⟩ | drawn
    · cases none
    · exact old _ _ drawn

/-- Whatever is written between the checks of a request and its batch, ids being drawn once
and no number being NaN, the batch is answered as the checks would be. -/
theorem lateAlike_writeAll {early later : List Write}
    (numeric : ∀ write ∈ early ++ later, write.IsNumeric)
    (fresh : ((early ++ later).filterMap Write.newId?).Nodup) :
    LateAlike (empty.writeAll early) (empty.writeAll (early ++ later)) where
  shipments _ passed := Service.alike_deleteShipments (follows_writeAll numeric fresh) passed
  lines _ passed := Service.alike_deleteLines (follows_writeAll numeric fresh) passed
  requisitions _ passed := Service.alike_deleteRequisitions (follows_writeAll numeric fresh) passed

/-! ### Verified, deleted and sent in between -/

namespace LateRequests

def early : List Write :=
  [.createShipment "a" .epoch .inbound "Clinic",
    .addLine "b" "a" ⟨"c", "C", "Gauze"⟩ (.stockIn ⟨none, none, 1, .zero⟩ .zero),
    .createShipment "d" .epoch .inbound "Ward",
    .createRequisition "e" .epoch "Ward",
    .createRequisition "f" .epoch "Clinic"]

/-- The number of the deleted shipment is given again. -/
def later : List Write :=
  [.updatePacks [("b", ⟨0x3ff0000000000000⟩)], .setShipmentStatus "a" .verified,
    .deleteShipments ["d"], .createShipment "g" .epoch .inbound "Ward",
    .setRequisitionStatus "e" .sent]

/-- The line twice. -/
def lines : List Depot.Target := [⟨"b", some "a"⟩, ⟨"b", some "a"⟩]

/-- Three requests are turned down for three reasons, and the fourth goes through. -/
theorem lateAlike_lateRequests :
    (∃ rejection, Service.checkLineDeletions (empty.writeAll (early ++ later)) lines =
        .error rejection ∧ rejection.code = .forbidden) ∧
      (∃ rejection, Service.checkShipmentDeletions (empty.writeAll (early ++ later))
        [⟨"d", none⟩] = .error rejection ∧ rejection.code = .notFound) ∧
      (∃ rejection, Service.checkRequisitionDeletions (empty.writeAll (early ++ later))
        [⟨"f", none⟩, ⟨"e", none⟩] = .error rejection ∧ rejection.code = .validation) ∧
      ∃ count, ((empty.writeAll (early ++ later)).deleteRequisitions ["f"]).2 = .ok count := by
  have numeric : ∀ write ∈ early ++ later, write.IsNumeric := by
    simp only [early, later, List.cons_append, List.nil_append, List.forall_mem_cons]
    refine ⟨trivial, ⟨by decide, by decide⟩, trivial, trivial, trivial, ?_, trivial, trivial, trivial,
      trivial, List.forall_mem_nil _⟩
    exact List.forall_mem_singleton.mpr (by decide)
  have fresh : ((early ++ later).filterMap Write.newId?).Nodup := by decide
  have alike := lateAlike_writeAll numeric fresh
  refine ⟨?_, ?_, ?_, ?_⟩
  · exact ((alike.lines lines (by decide +kernel)).rejects (.locked .line "b")
      (by decide +kernel)).2
  · exact ((alike.shipments [⟨"d", none⟩] (by decide +kernel)).rejects (.missing .shipment "d")
      (by decide +kernel)).2
  · exact ((alike.requisitions [⟨"f", none⟩, ⟨"e", none⟩] (by decide +kernel)).rejects
      (.locked .requisition "e") (by decide +kernel)).2
  · exact (alike.requisitions [⟨"f", none⟩] (by decide +kernel)).accepts.mpr (by decide +kernel)

end LateRequests

end Database

end Depot
