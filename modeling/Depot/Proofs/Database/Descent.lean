import Depot.Proofs.Database.Effect
import Depot.Proofs.Database.Packs

/-!
Contract: rows before and after more writes.

A row that is there after a run was there before, or the run made it. What a row keeps of
itself is everything but a shipment's status and hold, a requisition's status, and the pack
count of a line. With ids that are drawn only once, a row under an old id is therefore the
old row, and still names the shipment that it named.

Owns: descent of rows, and that the shipment of every line is there.
Does not own: what is left of a history (`Depot.Proofs.Database.History`).
-/

namespace Depot

open Database Decimal

/-- Whether no number of the content is NaN. -/
def LineContent.IsNumeric : LineContent → Prop
  | .stockIn stock price => stock.packs.isNaN = false ∧ price.isNaN = false
  | .stockOut _ stock price => stock.packs.isNaN = false ∧ price.isNaN = false
  | .service total _ => total.isNaN = false

namespace Database

/-! ### Writes -/

namespace Write

/-- The id under which a write makes a record. -/
def newId? : Write → Option (Entity × String)
  | .createShipment id _ _ _ => some (.shipment, id)
  | .addLine id _ _ _ => some (.line, id)
  | .createRequisition id _ _ => some (.requisition, id)
  | .setShipmentStatus .. | .setShipmentHold .. | .deleteShipments .. | .deleteLines ..
  | .updatePacks .. | .setRequisitionStatus .. | .deleteRequisitions .. => none

/-- Whether no number that is written is NaN. -/
def IsNumeric : Write → Prop
  | .addLine _ _ _ content => content.IsNumeric
  | .updatePacks changes => ∀ change ∈ changes, change.2.isNaN = false
  | .createShipment .. | .setShipmentStatus .. | .setShipmentHold .. | .deleteShipments ..
  | .deleteLines .. | .createRequisition .. | .setRequisitionStatus ..
  | .deleteRequisitions .. => True

end Write

/-! ### Rows of one table -/

/-- Every row of the second list is made, or comes from a row of the first list. -/
def Stems {α : Type} (descends : α → α → Prop) (made : α → Prop) (before after : List α) : Prop :=
  ∀ row ∈ after, (∃ old ∈ before, descends old row) ∨ made row

namespace Stems

variable {α : Type} {descends : α → α → Prop} {made more : α → Prop}
  {before middle after : List α}

theorem of_sublist (same : ∀ row, descends row row) (sublist : after.Sublist before) :
    Stems descends made before after :=
  fun row member => .inl ⟨row, sublist.subset member, same row⟩

theorem refl (same : ∀ row, descends row row) : Stems descends made before before :=
  of_sublist same (List.Sublist.refl before)

theorem map {change : α → α} (changes : ∀ row, descends row (change row)) :
    Stems descends made before (before.map change) := by
  intro row member
  obtain ⟨old, inside, rfl⟩ := List.mem_map.mp member
  exact .inl ⟨old, inside, changes old⟩

theorem append_singleton (same : ∀ row, descends row row) {row : α} (new : made row) :
    Stems descends made before (before ++ [row]) := by
  intro other member
  rcases List.mem_append.mp member with old | single
  · exact .inl ⟨other, old, same other⟩
  · rw [List.mem_singleton.mp single]
    exact .inr new

theorem trans (compose : ∀ first second third, descends first second → descends second third →
      descends first third)
    (first : Stems descends made before middle) (second : Stems descends more middle after)
    (keeps : ∀ old row, made old → descends old row → made row) :
    Stems descends (fun row => made row ∨ more row) before after := by
  intro row member
  rcases second row member with ⟨old, inside, later⟩ | new
  · rcases first old inside with ⟨oldest, there, earlier⟩ | made
    · exact .inl ⟨oldest, there, compose oldest old row earlier later⟩
    · exact .inr (.inl (keeps old row made later))
  · exact .inr (.inr new)

/-- A row under an id that was not made comes from the row that had the id before. -/
theorem descends_of_id {key : α → Cell} (stems : Stems descends made before after)
    (keeps : ∀ old row, descends old row → key row = key old)
    (distinct : (before.map key).Nodup) {old row : α} (inside : old ∈ before)
    (member : row ∈ after) (same : key row = key old) (notMade : ¬made row) :
    descends old row := by
  rcases stems row member with ⟨other, there, descends⟩ | made
  · have single : other = old :=
      List.inj_on_of_nodup_map distinct there inside ((keeps other row descends).symm.trans same)
    exact single ▸ descends
  · exact absurd made notMade

end Stems

/-! ### Rows -/

/-- Writes change nothing of a shipment but its status and its hold. -/
def ShipmentRow.Descends (old new : ShipmentRow) : Prop :=
  new = { old with status := new.status, onHold := new.onHold } ∧
    (new.onHold = old.onHold ∨ ∃ onHold, new.onHold = .ofBool onHold)

/-- Writes change nothing of a line but its pack count. -/
def LineRow.Descends (old new : LineRow) : Prop :=
  ∃ changes : List (String × Binary64), (∀ change ∈ changes, change.2.isNaN = false) ∧
    new = changes.foldl LineRow.repack old

/-- Writes change nothing of a requisition but its status. -/
def RequisitionRow.Descends (old new : RequisitionRow) : Prop :=
  new = { old with status := new.status }

namespace ShipmentRow.Descends

variable {first second third : ShipmentRow}

theorem refl (row : ShipmentRow) : row.Descends row := ⟨rfl, .inl rfl⟩

theorem trans (earlier : first.Descends second) (later : second.Descends third) :
    first.Descends third := by
  obtain ⟨earlier, held⟩ := earlier
  obtain ⟨later, heldLater⟩ := later
  refine ⟨?_, ?_⟩
  · rw [later, earlier]
  · rcases heldLater with same | other
    · rw [same]
      exact held
    · exact .inr other

theorem id (descends : first.Descends second) : second.id = first.id := by
  rw [descends.1]

/-- A row that comes from a readable row can be read, and as a shipment of its direction. -/
theorem reads (descends : first.Descends second) (sound : second.Sound) {shipment : Shipment}
    (read : first.read = .ok shipment) :
    ∃ status onHold, second.read = .ok { shipment with status, onHold } := by
  obtain ⟨same, held⟩ := descends
  obtain ⟨status, written⟩ := sound.status
  obtain ⟨readDirection, -, readId, readNumber, readParty, readHold, readCreated⟩ :=
    (read_eq_ok first shipment).mp read
  have readsHold : ∃ onHold, second.onHold.readBool = .ok onHold := by
    rcases held with same | ⟨onHold, same⟩
    · exact ⟨shipment.onHold, same ▸ readHold⟩
    · rw [same]
      exact ⟨_, rfl⟩
  obtain ⟨onHold, readsHold⟩ := readsHold
  refine ⟨status, onHold, (read_eq_ok _ _).mpr ?_⟩
  rw [same]
  refine ⟨readDirection, ⟨status.word, ?_, read?_word_shipmentStatus status⟩, readId, readNumber,
    readParty, readsHold, readCreated⟩
  show second.status.readText = .ok status.word
  rw [written]
  rfl

end ShipmentRow.Descends

namespace LineRow.Descends

variable {first second third : LineRow}

theorem refl (row : LineRow) : row.Descends row := ⟨[], List.forall_mem_nil _, rfl⟩

theorem trans (earlier : first.Descends second) (later : second.Descends third) :
    first.Descends third := by
  obtain ⟨changes, numbers, rfl⟩ := earlier
  obtain ⟨changesLater, numbersLater, rfl⟩ := later
  refine ⟨changes ++ changesLater, List.forall_mem_append.mpr ⟨numbers, numbersLater⟩, ?_⟩
  rw [List.foldl_append]

theorem id (descends : first.Descends second) : second.id = first.id := by
  obtain ⟨changes, -, rfl⟩ := descends
  exact id_foldl_repack first changes

theorem reads (descends : first.Descends second) (sound : first.Sound) {line : Line}
    (read : first.read = .ok line) :
    ∃ later : Line, second.read = .ok later ∧ later.id = line.id ∧
      later.shipmentId = line.shipmentId ∧ later.kind = line.kind := by
  obtain ⟨changes, numbers, rfl⟩ := descends
  exact ⟨_, read_foldl_repack sound read numbers, line.foldl_repack_eq changes⟩

end LineRow.Descends

namespace RequisitionRow.Descends

variable {first second third : RequisitionRow}

theorem refl (row : RequisitionRow) : row.Descends row := rfl

theorem trans (earlier : first.Descends second) (later : second.Descends third) :
    first.Descends third := by
  unfold RequisitionRow.Descends at *
  rw [later, earlier]

theorem id (descends : first.Descends second) : second.id = first.id := by
  rw [descends]

theorem reads (descends : first.Descends second) (sound : second.Sound)
    {requisition : Requisition} (read : first.read = .ok requisition) :
    ∃ status, second.read = .ok { requisition with status } := by
  obtain ⟨status, written⟩ := sound.status
  obtain ⟨-, readId, readNumber, readParty, readCreated⟩ :=
    (read_eq_ok first requisition).mp read
  refine ⟨status, (read_eq_ok _ _).mpr ?_⟩
  rw [descends]
  refine ⟨⟨status.word, ?_, read?_word_requisitionStatus status⟩, readId, readNumber, readParty,
    readCreated⟩
  show second.status.readText = .ok status.word
  rw [written]
  rfl

end RequisitionRow.Descends

/-! ### Tables -/

/-- The cell is one of the ids of a table. -/
def IsOneOf (made : List (Entity × String)) (entity : Entity) (cell : Cell) : Prop :=
  ∃ id, (entity, id) ∈ made ∧ cell = .text id

/-- The rows of a database come from an earlier one, or were made under given ids. -/
structure Descends (before after : Database) (made : List (Entity × String)) : Prop where
  shipments : Stems ShipmentRow.Descends (IsOneOf made .shipment ·.id) before.shipments
    after.shipments
  lines : Stems LineRow.Descends (IsOneOf made .line ·.id) before.lines after.lines
  requisitions : Stems RequisitionRow.Descends (IsOneOf made .requisition ·.id)
    before.requisitions after.requisitions

namespace Descends

variable {before middle after : Database} {made more : List (Entity × String)}

theorem of_sublists (shipments : after.shipments.Sublist before.shipments)
    (lines : after.lines.Sublist before.lines)
    (requisitions : after.requisitions.Sublist before.requisitions) :
    Descends before after made where
  shipments := .of_sublist .refl shipments
  lines := .of_sublist .refl lines
  requisitions := .of_sublist .refl requisitions

theorem refl (database : Database) : Descends database database made :=
  of_sublists (List.Sublist.refl _) (List.Sublist.refl _) (List.Sublist.refl _)

theorem trans (earlier : Descends before middle made) (later : Descends middle after more) :
    Descends before after (made ++ more) := by
  have either : ∀ (entity : Entity) (cell : Cell),
      (IsOneOf made entity cell ∨ IsOneOf more entity cell) → IsOneOf (made ++ more) entity cell := by
    rintro entity cell (⟨id, member, same⟩ | ⟨id, member, same⟩)
    · exact ⟨id, List.mem_append_left more member, same⟩
    · exact ⟨id, List.mem_append_right made member, same⟩
  refine ⟨?_, ?_, ?_⟩
  · intro row member
    have stems := earlier.shipments.trans (fun _ _ _ => .trans) later.shipments
      (fun old row made descends => descends.id ▸ made)
    exact (stems row member).imp_right (either .shipment row.id)
  · intro row member
    have stems := earlier.lines.trans (fun _ _ _ => .trans) later.lines
      (fun old row made descends => descends.id ▸ made)
    exact (stems row member).imp_right (either .line row.id)
  · intro row member
    have stems := earlier.requisitions.trans (fun _ _ _ => .trans) later.requisitions
      (fun old row made descends => descends.id ▸ made)
    exact (stems row member).imp_right (either .requisition row.id)

end Descends

theorem Effect.descends {database after : Database} {write : Write} {event? : Option Event}
    (effect : Effect database write event? after) (numeric : write.IsNumeric) :
    Descends database after write.newId?.toList := by
  have unchanged : ∀ made : List (Entity × String), Descends database database made :=
    fun made => .refl database
  cases effect with
  | refused write => exact .refl database
  | createShipment id now direction party accepted =>
      exact { unchanged _ with
        shipments := .append_singleton .refl ⟨id, List.mem_singleton_self _, rfl⟩ }
  | setShipmentStatus id status =>
      refine { unchanged _ with shipments := .map ?_ }
      intro row
      split
      next => exact ⟨rfl, .inl rfl⟩
      next => exact .refl row
  | setShipmentHold id onHold =>
      refine { unchanged _ with shipments := .map ?_ }
      intro row
      split
      next => exact ⟨rfl, .inr ⟨onHold, rfl⟩⟩
      next => exact .refl row
  | deleteShipments ids =>
      exact .of_sublists List.filter_sublist List.filter_sublist (List.Sublist.refl _)
  | addLine id shipmentId item content accepted owned =>
      exact { unchanged _ with
        lines := .append_singleton .refl
          ⟨id, List.mem_singleton_self _, LineRow.id_written _⟩ }
  | deleteLines ids =>
      exact .of_sublists (List.Sublist.refl _) List.filter_sublist (List.Sublist.refl _)
  | updatePacks changes =>
      refine { unchanged _ with lines := .map ?_ }
      intro row
      exact ⟨changes, numeric, rfl⟩
  | createRequisition id now party accepted =>
      exact { unchanged _ with
        requisitions := .append_singleton .refl ⟨id, List.mem_singleton_self _, rfl⟩ }
  | setRequisitionStatus id status =>
      refine { unchanged _ with requisitions := .map ?_ }
      intro row
      split
      next => rfl
      next => exact .refl row
  | deleteRequisitions ids =>
      exact .of_sublists (List.Sublist.refl _) (List.Sublist.refl _) List.filter_sublist

theorem descends_writeAll {database : Database} (sound : database.Sound) {writes : List Write}
    (numeric : ∀ write ∈ writes, write.IsNumeric) :
    Descends database (database.writeAll writes) (writes.filterMap Write.newId?) := by
  induction writes generalizing database with
  | nil => exact .refl database
  | cons write writes inductionHypothesis =>
      have first := (effect_write sound.isOpen write).descends (numeric write List.mem_cons_self)
      have rest := inductionHypothesis (sound.write write) fun other member =>
        numeric other (List.mem_cons_of_mem _ member)
      have made : (write :: writes).filterMap Write.newId? =
          write.newId?.toList ++ writes.filterMap Write.newId? := by
        rw [List.filterMap_cons]
        cases write.newId? <;> rfl
      rw [made]
      exact first.trans rest

/-! ### Owners -/

/-- Lines may go, but what stays belongs to its shipment as before. -/
def SameOwners (before after : Database) : Prop :=
  Stems (fun old new : LineRow => new.id = old.id ∧ new.shipmentId = old.shipmentId)
    (fun _ => False) before.lines after.lines

theorem SameOwners.refl (database : Database) : SameOwners database database :=
  Stems.refl fun _ => ⟨rfl, rfl⟩

theorem SameOwners.trans {before middle after : Database} (earlier : SameOwners before middle)
    (later : SameOwners middle after) : SameOwners before after := by
  intro row member
  have stems := Stems.trans (fun _ _ _ first second =>
    ⟨second.1.trans first.1, second.2.trans first.2⟩) earlier later fun _ _ made _ => made
  exact (stems row member).imp_right fun made => made.elim id id

theorem Effect.sameOwners {database after : Database} {write : Write} {event? : Option Event}
    (effect : Effect database write event? after) (nothing : write.newId? = none) :
    SameOwners database after := by
  have same : ∀ row : LineRow, row.id = row.id ∧ row.shipmentId = row.shipmentId :=
    fun row => ⟨rfl, rfl⟩
  cases effect with
  | addLine => cases nothing
  | deleteShipments ids => exact Stems.of_sublist same List.filter_sublist
  | deleteLines ids => exact Stems.of_sublist same List.filter_sublist
  | updatePacks changes =>
      exact Stems.map fun row => ⟨row.id_foldl_repack changes, row.shipmentId_foldl_repack changes⟩
  | refused | createShipment | setShipmentStatus | setShipmentHold | createRequisition
  | setRequisitionStatus | deleteRequisitions => exact .refl database

theorem Sound.sameOwners_writeAll {database : Database} (sound : database.Sound)
    {writes : List Write} (nothing : ∀ write ∈ writes, write.newId? = none) :
    SameOwners database (database.writeAll writes) := by
  induction writes generalizing database with
  | nil => exact .refl database
  | cons write writes inductionHypothesis =>
      obtain ⟨first, rest⟩ := List.forall_mem_cons.mp nothing
      exact ((effect_write sound.isOpen write).sameOwners first).trans
        (inductionHypothesis (sound.write write) rest)

/-- The shipment of every line is there. -/
def Owned (database : Database) : Prop :=
  ∀ row ∈ database.lines, ∃ shipment ∈ database.shipments, shipment.id = row.shipmentId

/-- Lines may go and change, as long as no shipment with lines goes. -/
theorem Owned.stay {before after : Database} (owned : before.Owned)
    (lines : ∀ row ∈ after.lines, ∃ old ∈ before.lines, row.shipmentId = old.shipmentId)
    (shipments : ∀ row ∈ before.shipments, ∃ new ∈ after.shipments, new.id = row.id) :
    after.Owned := by
  intro row member
  obtain ⟨old, inside, same⟩ := lines row member
  obtain ⟨owner, there, mine⟩ := owned old inside
  obtain ⟨new, kept, named⟩ := shipments owner there
  exact ⟨new, kept, by rw [named, mine, same]⟩

theorem Effect.owned {database after : Database} {write : Write} {event? : Option Event}
    (effect : Effect database write event? after) (owned : database.Owned) : after.Owned := by
  have lines : ∀ row ∈ database.lines, ∃ old ∈ database.lines, row.shipmentId = old.shipmentId :=
    fun row member => ⟨row, member, rfl⟩
  have shipments : ∀ row ∈ database.shipments, ∃ new ∈ database.shipments, new.id = row.id :=
    fun row member => ⟨row, member, rfl⟩
  have changed : ∀ (id : String) (change : ShipmentRow → ShipmentRow),
      (∀ row, (change row).id = row.id) →
      ∀ row ∈ database.shipments, ∃ new ∈ (database.mapShipment id change).shipments,
        new.id = row.id := by
    intro id change keeps row member
    refine ⟨_, List.mem_map_of_mem member, ?_⟩
    split
    next => exact keeps row
    next => rfl
  cases effect with
  | refused write => exact owned
  | createShipment id now direction party accepted =>
      refine owned.stay lines ?_
      intro row member
      exact ⟨row, List.mem_append_left _ member, rfl⟩
  | setShipmentStatus id status => exact owned.stay lines (changed id _ fun row => rfl)
  | setShipmentHold id onHold => exact owned.stay lines (changed id _ fun row => rfl)
  | deleteShipments ids =>
      -- The lines of a dropped shipment are dropped with it.
      intro row member
      obtain ⟨inside, kept⟩ := List.mem_filter.mp member
      obtain ⟨owner, there, mine⟩ := owned row inside
      refine ⟨owner, List.mem_filter.mpr ⟨there, ?_⟩, mine⟩
      rw [mine]
      exact kept
  | addLine id shipmentId item content accepted hasOwner =>
      refine forall_mem_append_singleton owned ?_
      obtain ⟨owner, there, agrees⟩ := List.any_eq_true.mp hasOwner
      rw [LineRow.shipmentId_written, Cell.agrees_text] at agrees
      rw [LineRow.shipmentId_written]
      exact ⟨owner, there, of_decide_eq_true agrees⟩
  | deleteLines ids =>
      refine owned.stay ?_ shipments
      intro row member
      exact ⟨row, (List.mem_filter.mp member).1, rfl⟩
  | updatePacks changes =>
      refine owned.stay ?_ shipments
      intro row member
      obtain ⟨old, inside, rfl⟩ := List.mem_map.mp member
      exact ⟨old, inside, LineRow.shipmentId_foldl_repack old changes⟩
  | createRequisition id now party accepted => exact owned
  | setRequisitionStatus id status => exact owned
  | deleteRequisitions ids => exact owned

theorem owned_writeAll (writes : List Write) : (empty.writeAll writes).Owned := by
  have all : ∀ database : Database, database.Sound → database.Owned →
      (database.writeAll writes).Owned := by
    induction writes with
    | nil => exact fun database sound owned => owned
    | cons write writes inductionHypothesis =>
        intro database sound owned
        exact inductionHypothesis _ (sound.write write)
          ((effect_write sound.isOpen write).owned owned)
  exact all empty sound_empty (List.forall_mem_nil _)

end Database

end Depot
