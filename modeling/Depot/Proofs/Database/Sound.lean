import Depot.Proofs.Database.Batches
import Depot.Proofs.Database.Order

/-!
Contract: what holds of every database that only writes have filled.

A run of writes starts without rows. Every id is a text and is there once; the shipments of
a direction and the requisitions have different numbers; words are written as they are
spelt; and no double is NaN. A row that is put into a table by hand need not satisfy any of
this, so that everything said about sound databases is about the writes.

Owns: writes, runs of them, and soundness.
Does not own: what rows read as (`Depot.Proofs.Database.Reading`).
-/

namespace Depot

open Database

namespace Database

/-! ### Writes -/

/-- A write to the database, with the ids and the moments that it draws. -/
inductive Write where
  | createShipment (id : String) (now : Calendar.Instant) (direction : Direction)
      (party : String)
  | setShipmentStatus (id : String) (status : ShipmentStatus)
  | setShipmentHold (id : String) (onHold : Bool)
  | deleteShipments (ids : List String)
  | addLine (id shipmentId : String) (item : Item) (content : LineContent)
  | deleteLines (ids : List String)
  | updatePacks (changes : List (String × Decimal.Binary64))
  | createRequisition (id : String) (now : Calendar.Instant) (party : String)
  | setRequisitionStatus (id : String) (status : RequisitionStatus)
  | deleteRequisitions (ids : List String)

/-- The database after a write, whether it was refused or not. -/
def write (database : Database) : Write → Database
  | .createShipment id now direction party =>
      (database.createShipment id now direction party).1
  | .setShipmentStatus id status => (database.setShipmentStatus id status).1
  | .setShipmentHold id onHold => (database.setShipmentHold id onHold).1
  | .deleteShipments ids => (database.deleteShipments ids).1
  | .addLine id shipmentId item content => (database.addLine id shipmentId item content).1
  | .deleteLines ids => (database.deleteLines ids).1
  | .updatePacks changes => (database.updatePacks changes).1
  | .createRequisition id now party => (database.createRequisition id now party).1
  | .setRequisitionStatus id status => (database.setRequisitionStatus id status).1
  | .deleteRequisitions ids => (database.deleteRequisitions ids).1

/-- The database after a run of writes. -/
def writeAll (database : Database) (writes : List Write) : Database :=
  writes.foldl write database

end Database

/-! ### Rows as writes leave them -/

namespace Database

/-- A cell that a column of doubles can hold. -/
def Cell.IsNumeric (cell : Cell) : Prop :=
  ∀ value, cell = .real value → value.isNaN = false

theorem Cell.isNumeric_stored_ofDouble (value : Decimal.Binary64) :
    ((Cell.ofDouble value).stored .real).IsNumeric := by
  intro other same
  unfold Cell.ofDouble at same
  by_cases nan : value.isNaN = true
  · rw [if_pos nan] at same
    cases same
  · have number : value.isNaN = false := Bool.eq_false_of_not_eq_true nan
    simp only [number, Bool.false_eq_true, ↓reduceIte, Cell.stored, Cell.realNumber,
      Cell.real.injEq] at same
    subst same
    split
    · decide
    · exact number

structure ShipmentRow.Sound (row : ShipmentRow) : Prop where
  id : ∃ name, row.id = .text name
  direction : ∃ direction : Direction, row.direction = .text direction.word
  status : ∃ status : ShipmentStatus, row.status = .text status.word

structure LineRow.Sound (row : LineRow) : Prop where
  id : ∃ name, row.id = .text name
  shipmentId : ∃ name, row.shipmentId = .text name
  kind : ∃ kind : LineKind, row.kind = .text kind.word
  packs : row.packs.IsNumeric
  price : row.price.IsNumeric
  total : row.total.IsNumeric

structure RequisitionRow.Sound (row : RequisitionRow) : Prop where
  id : ∃ name, row.id = .text name
  status : ∃ status : RequisitionStatus, row.status = .text status.word

theorem LineRow.sound_stored_ofLine (line : Line) : (LineRow.ofLine line).stored.Sound := by
  have empty : ((Cell.empty).stored .real).IsNumeric := by
    intro value same
    cases same
  obtain ⟨id, shipmentId, item, content⟩ := line
  cases content with
  | stockIn stock price =>
      exact ⟨⟨_, rfl⟩, ⟨_, rfl⟩, ⟨_, rfl⟩, Cell.isNumeric_stored_ofDouble _,
        Cell.isNumeric_stored_ofDouble _, empty⟩
  | stockOut stockLineId stock price =>
      exact ⟨⟨_, rfl⟩, ⟨_, rfl⟩, ⟨_, rfl⟩, Cell.isNumeric_stored_ofDouble _,
        Cell.isNumeric_stored_ofDouble _, empty⟩
  | service total note =>
      exact ⟨⟨_, rfl⟩, ⟨_, rfl⟩, ⟨_, rfl⟩, empty, empty, Cell.isNumeric_stored_ofDouble _⟩

theorem LineRow.Sound.repack {row : LineRow} (sound : row.Sound)
    (change : String × Decimal.Binary64) : (row.repack change).Sound := by
  unfold LineRow.repack
  split
  next => exact { sound with packs := Cell.isNumeric_stored_ofDouble change.2 }
  next => exact sound

theorem LineRow.Sound.foldl_repack {row : LineRow} (sound : row.Sound) :
    ∀ changes : List (String × Decimal.Binary64), (changes.foldl LineRow.repack row).Sound
  | [] => sound
  | change :: changes => (sound.repack change).foldl_repack changes

/-- Where a shipment stands in the lists: its direction and the rank of its number. -/
def ShipmentRow.place (row : ShipmentRow) : Cell × (Nat ×ₗ Int ×ₗ String) :=
  (row.direction, row.number.rank)

/-- A database as writes leave it. -/
structure Sound (database : Database) : Prop where
  isOpen : database.isOpen = true
  shipmentIds : (database.shipments.map ShipmentRow.id).Nodup
  shipmentPlaces : (database.shipments.map ShipmentRow.place).Nodup
  lineIds : (database.lines.map LineRow.id).Nodup
  requisitionIds : (database.requisitions.map RequisitionRow.id).Nodup
  requisitionNumbers : (database.requisitions.map fun row => row.number.rank).Nodup
  shipments : ∀ row ∈ database.shipments, row.Sound
  lines : ∀ row ∈ database.lines, row.Sound
  requisitions : ∀ row ∈ database.requisitions, row.Sound

/-! ### Constraints -/

variable {α κ : Type}

theorem nodup_map_append {key : α → κ} {rows : List α} (distinct : (rows.map key).Nodup)
    {row : α} (fresh : ∀ other ∈ rows, key other ≠ key row) :
    ((rows ++ [row]).map key).Nodup := by
  rw [List.map_append, List.nodup_append]
  refine ⟨distinct, List.nodup_singleton _, ?_⟩
  intro old member new single same
  obtain ⟨other, inside, rfl⟩ := List.mem_map.mp member
  rw [List.map_singleton, List.mem_singleton] at single
  exact fresh other inside (same.trans single)

/-- Numbers of equal rank agree, unless both are empty. -/
theorem Cell.agrees_of_rank_eq {left right : Cell} (same : left.rank = right.rank)
    (filled : right.isEmpty = false) : left.agrees right = true := by
  have level : left.order right = .eq := (order_eq_iff left right).mpr same
  have filledLeft : left.isEmpty = false := by
    cases left with
    | empty =>
        cases right with
        | empty => exact filled
        | integer | real | text => cases level
    | integer | real | text => rfl
  simp [agrees, filledLeft, level]

theorem Cell.ne_of_not_agrees {left right : Cell} (named : ∃ name, right = .text name)
    (differs : left.agrees right = false) : left ≠ right := by
  obtain ⟨name, rfl⟩ := named
  rw [left.agrees_text name] at differs
  exact of_decide_eq_false differs

theorem forall_mem_append_singleton {good : α → Prop} {rows : List α} {row : α}
    (all : ∀ other ∈ rows, good other) (new : good row) : ∀ other ∈ rows ++ [row], good other :=
  List.forall_mem_append.mpr ⟨all, List.forall_mem_singleton.mpr new⟩

namespace Sound

variable {database : Database}

/-- Rows may be dropped. -/
theorem restrict (sound : database.Sound) {after : Database}
    (same : after.isOpen = database.isOpen)
    (shipments : after.shipments.Sublist database.shipments)
    (lines : after.lines.Sublist database.lines)
    (requisitions : after.requisitions.Sublist database.requisitions) : after.Sound where
  isOpen := same.trans sound.isOpen
  shipmentIds := (shipments.map _).nodup sound.shipmentIds
  shipmentPlaces := (shipments.map _).nodup sound.shipmentPlaces
  lineIds := (lines.map _).nodup sound.lineIds
  requisitionIds := (requisitions.map _).nodup sound.requisitionIds
  requisitionNumbers := (requisitions.map _).nodup sound.requisitionNumbers
  shipments row member := sound.shipments row (shipments.subset member)
  lines row member := sound.lines row (lines.subset member)
  requisitions row member := sound.requisitions row (requisitions.subset member)

theorem putShipment (sound : database.Sound) (row : ShipmentRow) (stored : row.stored.Sound) :
    (database.putShipment row).1.Sound := by
  unfold Database.putShipment
  by_cases accepted : database.acceptsShipment row.stored = true
  · simp only [accepted, ↓reduceIte]
    simp only [acceptsShipment, Bool.and_eq_true, List.all_eq_true, Bool.not_eq_true',
      Bool.and_eq_false_iff] at accepted
    obtain ⟨filled, fresh⟩ := accepted
    -- An empty number would agree with no other and so could come twice.
    have numbered : row.stored.number.isEmpty = false := by
      simpa using List.all_eq_true.mp filled row.stored.number (by simp)
    refine { sound with
      shipmentIds := nodup_map_append sound.shipmentIds ?_
      shipmentPlaces := nodup_map_append sound.shipmentPlaces ?_
      shipments := forall_mem_append_singleton sound.shipments stored }
    · intro other member
      exact Cell.ne_of_not_agrees stored.id (fresh other member).1
    · intro other member same
      obtain ⟨direction, directed⟩ := stored.direction
      obtain ⟨sameDirection, sameNumber⟩ := Prod.mk.inj same
      rcases (fresh other member).2 with differs | differs
      · exact Cell.ne_of_not_agrees ⟨_, directed⟩ differs sameDirection
      · rw [Cell.agrees_of_rank_eq sameNumber numbered] at differs
        cases differs
  · simp only [accepted]
    exact sound

theorem putLine (sound : database.Sound) (row : LineRow) (stored : row.stored.Sound)
    (orphan : Bool) : (database.putLine row orphan).1.Sound := by
  unfold Database.putLine
  by_cases accepted :
      (database.acceptsLine row.stored && (orphan || database.hasShipmentOf row.stored)) = true
  · simp only [accepted, ↓reduceIte]
    simp only [acceptsLine, Bool.and_eq_true, List.all_eq_true, Bool.not_eq_true'] at accepted
    obtain ⟨⟨-, fresh⟩, -⟩ := accepted
    refine { sound with
      lineIds := nodup_map_append sound.lineIds ?_
      lines := forall_mem_append_singleton sound.lines stored }
    intro other member
    exact Cell.ne_of_not_agrees stored.id (fresh other member)
  · simp only [accepted]
    exact sound

theorem putRequisition (sound : database.Sound) (row : RequisitionRow)
    (stored : row.stored.Sound) : (database.putRequisition row).1.Sound := by
  unfold Database.putRequisition
  by_cases accepted : database.acceptsRequisition row.stored = true
  · simp only [accepted, ↓reduceIte]
    simp only [acceptsRequisition, Bool.and_eq_true, List.all_eq_true, Bool.not_eq_true']
      at accepted
    obtain ⟨filled, fresh⟩ := accepted
    have numbered : row.stored.number.isEmpty = false := by
      simpa using List.all_eq_true.mp filled row.stored.number (by simp)
    refine { sound with
      requisitionIds := nodup_map_append sound.requisitionIds ?_
      requisitionNumbers := nodup_map_append sound.requisitionNumbers ?_
      requisitions := forall_mem_append_singleton sound.requisitions stored }
    · intro other member
      exact Cell.ne_of_not_agrees stored.id (fresh other member).1
    · intro other member same
      have differs := (fresh other member).2
      rw [Cell.agrees_of_rank_eq same numbered] at differs
      cases differs
  · simp only [accepted]
    exact sound

/-- Shipments may change in what neither names nor numbers them. -/
theorem mapShipments (sound : database.Sound) (change : ShipmentRow → ShipmentRow)
    (kept : ∀ row : ShipmentRow, row.Sound →
      (change row).Sound ∧ (change row).id = row.id ∧ (change row).place = row.place) :
    Sound { database with shipments := database.shipments.map change } := by
  have ids : (database.shipments.map change).map ShipmentRow.id =
      database.shipments.map ShipmentRow.id := by
    rw [List.map_map]
    exact List.map_congr_left fun row member => (kept row (sound.shipments row member)).2.1
  have places : (database.shipments.map change).map ShipmentRow.place =
      database.shipments.map ShipmentRow.place := by
    rw [List.map_map]
    exact List.map_congr_left fun row member => (kept row (sound.shipments row member)).2.2
  refine { sound with shipmentIds := ?_, shipmentPlaces := ?_, shipments := ?_ }
  · rw [ids]
    exact sound.shipmentIds
  · rw [places]
    exact sound.shipmentPlaces
  · intro other member
    obtain ⟨row, inside, rfl⟩ := List.mem_map.mp member
    exact (kept row (sound.shipments row inside)).1

/-- Lines may change in what does not name them. -/
theorem mapLines (sound : database.Sound) (change : LineRow → LineRow)
    (kept : ∀ row : LineRow, row.Sound → (change row).Sound ∧ (change row).id = row.id) :
    Sound { database with lines := database.lines.map change } := by
  have ids : (database.lines.map change).map LineRow.id = database.lines.map LineRow.id := by
    rw [List.map_map]
    exact List.map_congr_left fun row member => (kept row (sound.lines row member)).2
  refine { sound with lineIds := ?_, lines := ?_ }
  · rw [ids]
    exact sound.lineIds
  · intro other member
    obtain ⟨row, inside, rfl⟩ := List.mem_map.mp member
    exact (kept row (sound.lines row inside)).1

/-- Requisitions may change in what neither names nor numbers them. -/
theorem mapRequisitions (sound : database.Sound) (change : RequisitionRow → RequisitionRow)
    (kept : ∀ row : RequisitionRow, row.Sound →
      (change row).Sound ∧ (change row).id = row.id ∧ (change row).number = row.number) :
    Sound { database with requisitions := database.requisitions.map change } := by
  have ids : (database.requisitions.map change).map RequisitionRow.id =
      database.requisitions.map RequisitionRow.id := by
    rw [List.map_map]
    exact List.map_congr_left fun row member => (kept row (sound.requisitions row member)).2.1
  have numbers : ((database.requisitions.map change).map fun row => row.number.rank) =
      database.requisitions.map fun row => row.number.rank := by
    rw [List.map_map]
    exact List.map_congr_left fun row member =>
      congrArg Cell.rank (kept row (sound.requisitions row member)).2.2
  refine { sound with requisitionIds := ?_, requisitionNumbers := ?_, requisitions := ?_ }
  · rw [ids]
    exact sound.requisitionIds
  · rw [numbers]
    exact sound.requisitionNumbers
  · intro other member
    obtain ⟨row, inside, rfl⟩ := List.mem_map.mp member
    exact (kept row (sound.requisitions row inside)).1

/-! ### Each write -/

/-- A batch that goes through as a whole or not at all leaves a sound database. -/
theorem of_batch (sound : database.Sound) {after : Database} (soundAfter : after.Sound)
    {ran : Database × Except Fault Nat} {count : Nat}
    (cases : ran = (after, .ok count) ∨ ∃ fault, ran = (database, .error fault)) :
    ran.1.Sound := by
  rcases cases with rfl | ⟨fault, rfl⟩
  · exact soundAfter
  · exact sound

theorem changeShipment (sound : database.Sound) (id : String)
    (change : ShipmentRow → ShipmentRow)
    (kept : ∀ row : ShipmentRow, row.Sound →
      (change row).Sound ∧ (change row).id = row.id ∧ (change row).place = row.place) :
    (database.changeShipment id change).1.Sound := by
  rw [Database.changeShipment, Database.changing, if_pos sound.isOpen]
  refine sound.mapShipments _ ?_
  intro row rowSound
  split
  · exact kept row rowSound
  · exact ⟨rowSound, rfl, rfl⟩

theorem createShipment (sound : database.Sound) (id : String) (now : Calendar.Instant)
    (direction : Direction) (party : String) :
    (database.createShipment id now direction party).1.Sound := by
  rw [Database.createShipment, Database.changing, if_pos sound.isOpen]
  simp only
  split
  next => exact sound
  next after put =>
    have stored := sound.putShipment
      { id := .text id
        number := database.nextShipmentNumber direction
        direction := .text direction.word
        status := .text ShipmentStatus.new.word
        party := .text party
        onHold := .ofBool false
        createdAt := .ofInstant now } ⟨⟨_, rfl⟩, ⟨_, rfl⟩, ⟨_, rfl⟩⟩
    rw [put] at stored
    exact stored

theorem addLine (sound : database.Sound) (id shipmentId : String) (item : Item)
    (content : LineContent) : (database.addLine id shipmentId item content).1.Sound := by
  rw [Database.addLine]
  simp only [sound.isOpen, ↓reduceIte]
  split
  next => exact sound
  next after put =>
    have stored := sound.putLine _ (LineRow.sound_stored_ofLine ⟨id, shipmentId, item, content⟩) false
    rw [put] at stored
    exact stored

theorem createRequisition (sound : database.Sound) (id : String) (now : Calendar.Instant)
    (party : String) : (database.createRequisition id now party).1.Sound := by
  rw [Database.createRequisition, Database.changing, if_pos sound.isOpen]
  simp only
  split
  next => exact sound
  next after put =>
    have stored := sound.putRequisition
      { id := .text id
        number := database.nextRequisitionNumber
        status := .text RequisitionStatus.draft.word
        party := .text party
        createdAt := .ofInstant now } ⟨⟨_, rfl⟩, ⟨_, rfl⟩⟩
    rw [put] at stored
    exact stored

theorem withAllPacks (sound : database.Sound) (changes : List (String × Decimal.Binary64)) :
    (database.withAllPacks changes).Sound :=
  sound.mapLines _ fun row rowSound =>
    ⟨rowSound.foldl_repack changes, row.id_foldl_repack changes⟩

theorem setRequisitionStatus (sound : database.Sound) (id : String)
    (status : RequisitionStatus) : (database.setRequisitionStatus id status).1.Sound := by
  rw [Database.setRequisitionStatus, Database.changing, if_pos sound.isOpen]
  refine sound.mapRequisitions _ ?_
  intro row rowSound
  split
  · exact ⟨⟨rowSound.id, ⟨status, rfl⟩⟩, rfl, rfl⟩
  · exact ⟨rowSound, rfl, rfl⟩

/-- Every write keeps a database sound. -/
theorem write (sound : database.Sound) (write : Write) : (database.write write).Sound := by
  cases write with
  | createShipment id now direction party => exact sound.createShipment id now direction party
  | setShipmentStatus id status =>
      refine sound.changeShipment id _ ?_
      intro row rowSound
      exact ⟨⟨rowSound.id, rowSound.direction, ⟨status, rfl⟩⟩, rfl, rfl⟩
  | setShipmentHold id onHold =>
      refine sound.changeShipment id _ ?_
      intro row rowSound
      exact ⟨⟨rowSound.id, rowSound.direction, rowSound.status⟩, rfl, rfl⟩
  | deleteShipments ids =>
      refine sound.of_batch ?_ (deleteShipments_cases sound.isOpen ids)
      exact sound.restrict rfl List.filter_sublist List.filter_sublist (List.Sublist.refl _)
  | addLine id shipmentId item content => exact sound.addLine id shipmentId item content
  | deleteLines ids =>
      refine sound.of_batch ?_ (deleteLines_cases sound.isOpen ids)
      exact sound.restrict rfl (List.Sublist.refl _) List.filter_sublist (List.Sublist.refl _)
  | updatePacks changes =>
      exact sound.of_batch (sound.withAllPacks changes) (updatePacks_cases sound.isOpen changes)
  | createRequisition id now party => exact sound.createRequisition id now party
  | setRequisitionStatus id status => exact sound.setRequisitionStatus id status
  | deleteRequisitions ids =>
      refine sound.of_batch ?_ (deleteRequisitions_cases sound.isOpen ids)
      exact sound.restrict rfl (List.Sublist.refl _) (List.Sublist.refl _) List.filter_sublist

end Sound

theorem sound_empty : Sound empty where
  isOpen := rfl
  shipmentIds := List.nodup_nil
  shipmentPlaces := List.nodup_nil
  lineIds := List.nodup_nil
  requisitionIds := List.nodup_nil
  requisitionNumbers := List.nodup_nil
  shipments := List.forall_mem_nil _
  lines := List.forall_mem_nil _
  requisitions := List.forall_mem_nil _

theorem Sound.writeAll {database : Database} (sound : database.Sound) :
    ∀ writes : List Write, (database.writeAll writes).Sound
  | [] => sound
  | write :: writes => (sound.write write).writeAll writes

/-- Every run of writes leaves a sound database. -/
theorem sound_writeAll (writes : List Write) : (empty.writeAll writes).Sound :=
  sound_empty.writeAll writes

end Database

end Depot
