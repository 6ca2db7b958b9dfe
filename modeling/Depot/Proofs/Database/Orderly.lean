import Depot.Stock.Row
import Depot.Proofs.Database.Doubles
import Depot.Proofs.Database.Numbers

/-!
Contract: what a database tells after any run of writes.

Ids are there once, numbers once in their series and from one on, and the shipment of every
line is there. A record under a fresh id is always created, and takes the number after the
greatest one. Lists by number are in the order of creation, although numbers are given again,
and the lines of a shipment are in the order in which they were added.

Owns: the lists of a run, and its creations.
Does not own: what is left of a history (`Depot.Proofs.Database.History`).
-/

namespace Depot

open Database Decimal

namespace Database

/-! ### Lists -/

theorem readAll_written {ρ α β : Type} {read : α → Except Fault β} {writeRow : ρ → α}
    {result : ρ → β} : ∀ {records : List ρ},
    (∀ record ∈ records, read (writeRow record) = .ok (result record)) →
      readAll read (records.map writeRow) = .ok (records.map result)
  | [], _ => rfl
  | record :: _, reads => by
      refine bind_eq_ok.mpr ⟨_, reads record List.mem_cons_self, ?_⟩
      refine bind_eq_ok.mpr ⟨_, readAll_written fun other member => ?_, rfl⟩
      exact reads other (List.mem_cons_of_mem _ member)

/-- Rows with increasing numbers are in the order of their numbers. -/
theorem byNumber_map {ρ α : Type} (column : α → Cell) (writeRow : ρ → α) {number : ρ → Int}
    (numbered : ∀ record, column (writeRow record) = .integer (number record))
    {records : List ρ}
    (increasing : records.Pairwise fun earlier later => number earlier < number later) :
    byNumber column (records.map writeRow) = records.map writeRow := by
  refine List.mergeSort_of_pairwise (List.pairwise_map.mpr (increasing.imp ?_))
  intro earlier later below
  rw [numbered, numbered]
  refine decide_eq_true ?_
  show compare (number earlier) (number later) ≠ .gt
  exact compare_le_iff_le.mpr (Int.le_of_lt below)

theorem Numbered.pairwise_filter {ρ κ : Type} [DecidableEq κ] {account : Account ρ}
    {number : ρ → Int} {series : ρ → κ} {events : List Event}
    (numbered : Numbered account number series events) (place : κ) :
    ((account.left events).filter fun record => series record = place).Pairwise
      fun earlier later => number earlier < number later := by
  have kept := numbered.increasing.filter fun record => decide (series record = place)
  refine kept.imp_of_mem ?_
  intro earlier later insideEarlier insideLater increases
  have here := of_decide_eq_true (List.mem_filter.mp insideEarlier).2
  have there := of_decide_eq_true (List.mem_filter.mp insideLater).2
  exact increases (here.trans there.symm)

namespace Kept

variable {database : Database} {events : List Event}

theorem listShipments (kept : Kept database events) (isOpen : database.isOpen = true)
    (direction : Direction) :
    database.listShipments direction =
      .ok ((shipmentAccount.left events).filter fun shipment => shipment.direction = direction) := by
  have sorted := byNumber_map ShipmentRow.number ShipmentRow.ofShipment (fun shipment => rfl)
    (kept.shipments.numbers.pairwise_filter direction)
  rw [Database.listShipments, listing_eq_ok database isOpen, kept.shipmentRowsOf, sorted,
    readAll_written fun shipment member => ShipmentRow.read_ofShipment shipment]
  exact congrArg _ (List.map_id' _)

theorem listRequisitions (kept : Kept database events) (isOpen : database.isOpen = true) :
    database.listRequisitions = .ok (requisitionAccount.left events) := by
  have increasing := kept.requisitions.numbers.increasing.imp fun increases => increases rfl
  have sorted := byNumber_map RequisitionRow.number RequisitionRow.ofRequisition
    (fun requisition => rfl) increasing
  rw [Database.listRequisitions, listing_eq_ok database isOpen, kept.requisitions.table, sorted,
    readAll_written fun requisition member => RequisitionRow.read_ofRequisition requisition]
  exact congrArg _ (List.map_id' _)

end Kept

/-! ### Lines -/

theorem AllGood.isNumeric {lines : List Line}
    (good : AllGood (fun number => number.isNaN = false) lines) :
    ∀ line ∈ lines, line.content.IsNumeric :=
  fun line member => line.content.isNumeric_iff.mpr (good line member)

/-- Numbers that are written keep every line that is left free of NaN. -/
theorem numeric_history {writes : List Write} (numeric : ∀ write ∈ writes, write.IsNumeric) :
    ∀ line ∈ lineAccount.left (empty.history writes), line.content.IsNumeric := by
  refine (allGood_history ?_).isNumeric
  rintro before write after rfl -
  have isNumeric := numeric write (by simp)
  cases write with
  | addLine id shipmentId item content => exact content.isNumeric_iff.mp isNumeric
  | updatePacks changes =>
      intro id packs last
      exact isNumeric (id, packs) (mem_of_lastCount? last)
  | createShipment | setShipmentStatus | setShipmentHold | deleteShipments | deleteLines
  | createRequisition | setRequisitionStatus | deleteRequisitions => trivial

/-- The rows of a shipment's lines are what is left of these lines, written. -/
theorem lineRowsOf_writeAll (writes : List Write) (shipmentId : String) :
    (empty.writeAll writes).lines.filter (fun row => row.shipmentId = .text shipmentId) =
      ((lineAccount.left (empty.history writes)).filter fun line =>
        line.shipmentId = shipmentId).map LineRow.written := by
  rw [lines_writeAll, List.filter_map]
  congr 1
  refine List.filter_congr ?_
  intro line member
  rw [Function.comp_apply, LineRow.shipmentId_written]
  exact decide_eq_decide.mpr ⟨Cell.text.inj, congrArg Cell.text⟩

theorem linesOf_of_numeric {writes : List Write} {shipmentId : String}
    (numeric : ∀ line ∈ lineAccount.left (empty.history writes), line.shipmentId = shipmentId →
      line.content.IsNumeric) :
    (empty.writeAll writes).linesOf shipmentId =
      .ok (((lineAccount.left (empty.history writes)).filter fun line =>
        line.shipmentId = shipmentId).map Line.kept) := by
  rw [linesOf, listing_eq_ok _ (sound_writeAll writes).isOpen, lineRowsOf_writeAll]
  refine readAll_written ?_
  intro line member
  obtain ⟨left, mine⟩ := List.mem_filter.mp member
  exact LineRow.read_written (numeric line left (of_decide_eq_true mine))

theorem linesOf_writeAll {writes : List Write}
    (numeric : ∀ line ∈ lineAccount.left (empty.history writes), line.content.IsNumeric)
    (shipmentId : String) :
    (empty.writeAll writes).linesOf shipmentId =
      .ok (((lineAccount.left (empty.history writes)).filter fun line =>
        line.shipmentId = shipmentId).map Line.kept) :=
  linesOf_of_numeric fun line left _ => numeric line left

theorem same_map_kept : ∀ {lines : List Line}, (∀ line ∈ lines, line.content.IsNumeric) →
    Rows.same (lines.map Line.kept) lines = true
  | [], _ => rfl
  | line :: lines, numeric => by
      show (line.kept.same line && Rows.same (lines.map Line.kept) lines) = true
      rw [Line.kept_same (numeric line List.mem_cons_self), Bool.true_and]
      exact same_map_kept fun other member => numeric other (List.mem_cons_of_mem _ member)

/-! ### Creations -/

theorem Cell.agrees_integer (left right : Int) :
    (Cell.integer left).agrees (.integer right) = decide (left = right) := by
  show (true && decide (compare left right = .eq)) = decide (left = right)
  rw [Bool.true_and]
  exact decide_eq_decide.mpr Int.compare_eq_eq

namespace Kept

variable {database : Database} {events : List Event}

/-- Under a fresh id the next number is accepted. -/
theorem acceptsShipment (kept : Kept database events) (room : HasRoom events) {id : String}
    (fresh : ∀ row ∈ database.shipments, row.id ≠ .text id) (now : Calendar.Instant)
    (direction : Direction) (party : String) :
    database.acceptsShipment (database.newShipmentRow id now direction party) = true := by
  have next := kept.toInt_newShipment room id now direction party
  rw [kept.newShipmentRow_eq room, Database.acceptsShipment, Bool.and_eq_true]
  refine ⟨rfl, List.all_eq_true.mpr ?_⟩
  intro row member
  have new := fresh row member
  rw [kept.shipments.table] at member
  obtain ⟨shipment, inside, rfl⟩ := List.mem_map.mp member
  have below : shipment.number.toInt ≤ shipmentAccount.greatest
      (fun shipment => shipment.number.toInt) Shipment.direction events shipment.direction :=
    Numbered.le_greatest inside
  have otherId : (ShipmentRow.ofShipment shipment).id.agrees (.text id) = false := by
    rw [Cell.agrees_text]
    exact decide_eq_false new
  have otherPlace : ((ShipmentRow.ofShipment shipment).direction.agrees (.text direction.word) &&
      (ShipmentRow.ofShipment shipment).number.agrees
        (.integer (newShipment events id now direction party).number.toInt)) = false := by
    rw [ShipmentRow.ofShipment, Cell.agrees_text, Cell.agrees_integer, Bool.and_eq_false_iff,
      decide_eq_false_iff_not, decide_eq_false_iff_not, word_eq_iff, ← not_and_or]
    rintro ⟨rfl, same⟩
    omega
  rw [Bool.and_eq_true, Bool.not_eq_true', Bool.not_eq_true']
  exact ⟨otherId, otherPlace⟩

theorem acceptsRequisition (kept : Kept database events) (room : HasRoom events) {id : String}
    (fresh : ∀ row ∈ database.requisitions, row.id ≠ .text id) (now : Calendar.Instant)
    (party : String) :
    database.acceptsRequisition (database.newRequisitionRow id now party) = true := by
  have next := kept.toInt_newRequisition room id now party
  rw [kept.newRequisitionRow_eq room, Database.acceptsRequisition, Bool.and_eq_true]
  refine ⟨rfl, List.all_eq_true.mpr ?_⟩
  intro row member
  have new := fresh row member
  rw [kept.requisitions.table] at member
  obtain ⟨requisition, inside, rfl⟩ := List.mem_map.mp member
  have below : requisition.number.toInt ≤ requisitionAccount.greatest
      (fun requisition => requisition.number.toInt) (fun _ => ()) events () :=
    Numbered.le_greatest inside
  have otherId : (RequisitionRow.ofRequisition requisition).id.agrees (.text id) = false := by
    rw [Cell.agrees_text]
    exact decide_eq_false new
  have otherNumber : (RequisitionRow.ofRequisition requisition).number.agrees
      (.integer (newRequisition events id now party).number.toInt) = false := by
    rw [RequisitionRow.ofRequisition, Cell.agrees_integer, decide_eq_false_iff_not]
    omega
  rw [Bool.and_eq_true, Bool.not_eq_true', Bool.not_eq_true']
  exact ⟨otherId, otherNumber⟩

/-- A shipment under a fresh id is created. -/
theorem createShipment (kept : Kept database events) (room : HasRoom events)
    (sound : database.Sound) {id : String} (fresh : ∀ row ∈ database.shipments, row.id ≠ .text id)
    (now : Calendar.Instant) (direction : Direction) (party : String) :
    (database.createShipment id now direction party).2 =
      .ok (newShipment events id now direction party) := by
  have accepted := kept.acceptsShipment room fresh now direction party
  have after := sound.createShipment id now direction party
  rw [createShipment_eq sound.isOpen] at after ⊢
  simp only [accepted, ↓reduceIte] at after ⊢
  rw [kept.shipmentById_withShipment room after]
  rfl

/-- A requisition under a fresh id is created. -/
theorem createRequisition (kept : Kept database events) (room : HasRoom events)
    (sound : database.Sound) {id : String}
    (fresh : ∀ row ∈ database.requisitions, row.id ≠ .text id) (now : Calendar.Instant)
    (party : String) :
    (database.createRequisition id now party).2 = .ok (newRequisition events id now party) := by
  have accepted := kept.acceptsRequisition room fresh now party
  have after := sound.createRequisition id now party
  rw [createRequisition_eq sound.isOpen] at after ⊢
  simp only [accepted, ↓reduceIte] at after ⊢
  rw [kept.requisitionById_withRequisition room after]
  rfl

end Kept

/-! ### Runs -/

/-- The answer is a record with the number after the greatest one of those that are there. -/
def IsNext {ρ : Type} (number : ρ → Int64) (there : Except Fault (List ρ))
    (answer : Except Fault ρ) : Prop :=
  ∃ records record, there = .ok records ∧ answer = .ok record ∧
    (number record).toInt = greatestOf (records.map fun other => (number other).toInt) + 1

/-- What is told after a run of writes. -/
structure Orderly (writes : List Write) : Prop where
  shipmentIds : ((empty.writeAll writes).shipments.map ShipmentRow.id).Nodup
  lineIds : ((empty.writeAll writes).lines.map LineRow.id).Nodup
  requisitionIds : ((empty.writeAll writes).requisitions.map RequisitionRow.id).Nodup
  shipmentNumbers :
    ((empty.writeAll writes).shipments.map fun row => (row.direction, row.number)).Nodup
  requisitionNumbers : ((empty.writeAll writes).requisitions.map RequisitionRow.number).Nodup
  shipmentsFromOne : ∀ row ∈ (empty.writeAll writes).shipments,
    ∃ number, 1 ≤ number ∧ row.number = .integer number
  requisitionsFromOne : ∀ row ∈ (empty.writeAll writes).requisitions,
    ∃ number, 1 ≤ number ∧ row.number = .integer number
  owned : (empty.writeAll writes).Owned
  /-- Shipments are listed in the order of creation, in which their numbers increase. -/
  shipments : ∀ direction, ∃ shipments,
    (empty.writeAll writes).listShipments direction = .ok shipments ∧
    shipments = (shipmentAccount.left (empty.history writes)).filter
      (fun shipment => shipment.direction = direction) ∧
    shipments.Pairwise fun earlier later => earlier.number.toInt < later.number.toInt
  /-- So are requisitions. -/
  requisitions : ∃ requisitions,
    (empty.writeAll writes).listRequisitions = .ok requisitions ∧
    requisitions = requisitionAccount.left (empty.history writes) ∧
    requisitions.Pairwise fun earlier later => earlier.number.toInt < later.number.toInt
  /-- The lines of a shipment are listed in the order in which they were added. -/
  lines : ∀ shipmentId, ∃ lines,
    (empty.writeAll writes).linesOf shipmentId = .ok lines ∧
    Rows.same lines ((lineAccount.left (empty.history writes)).filter
      fun line => line.shipmentId = shipmentId) = true
  /-- Creations succeed, with the next number. -/
  newShipments : ∀ before id now direction party after,
    writes = before ++ .createShipment id now direction party :: after →
    IsNext Shipment.number ((empty.writeAll before).listShipments direction)
      ((empty.writeAll before).createShipment id now direction party).2
  newRequisitions : ∀ before id now party after,
    writes = before ++ .createRequisition id now party :: after →
    IsNext Requisition.number (empty.writeAll before).listRequisitions
      ((empty.writeAll before).createRequisition id now party).2

theorem Sound.nodup_shipmentNumbers {database : Database} (sound : database.Sound) :
    (database.shipments.map fun row => (row.direction, row.number)).Nodup := by
  refine List.Nodup.of_map (Prod.map id Cell.rank) ?_
  rw [List.map_map]
  exact sound.shipmentPlaces

theorem Sound.nodup_requisitionNumbers {database : Database} (sound : database.Sound) :
    (database.requisitions.map RequisitionRow.number).Nodup := by
  refine List.Nodup.of_map Cell.rank ?_
  rw [List.map_map]
  exact sound.requisitionNumbers

theorem Holds.fromOne {ρ κ α : Type} {account : Account ρ} {writeRow : ρ → α} {number : ρ → Int}
    {series : ρ → κ} {rows : List α} {events : List Event}
    (holds : Holds account writeRow number series rows events) (column : α → Cell)
    (numbered : ∀ record, column (writeRow record) = .integer (number record)) :
    ∀ row ∈ rows, ∃ value, 1 ≤ value ∧ column row = .integer value := by
  intro row member
  rw [holds.table] at member
  obtain ⟨record, inside, rfl⟩ := List.mem_map.mp member
  exact ⟨number record, holds.numbers.positive record inside, numbered record⟩

section Creation

variable {writes before after : List Write} {creation : Write}

/-- Before a creation there is room for its number. -/
theorem room_before (split : writes = before ++ creation :: after)
    (numbered : creation.isNumbered = true)
    (few : writes.countP Write.isNumbered < Nat.pow 2 63) :
    Kept (empty.writeAll before) (empty.history before) ∧ HasRoom (empty.history before) := by
  have counted : writes.countP Write.isNumbered =
      before.countP Write.isNumbered + (after.countP Write.isNumbered + 1) := by
    rw [split, List.countP_append, List.countP_cons_of_pos numbered]
  exact ⟨kept_writeAll before (by omega), hasRoom_history (by omega)⟩

/-- Before a creation its id is not in use. -/
theorem fresh_before (split : writes = before ++ creation :: after) {made : Entity × String}
    (makes : creation.newId? = some made) (fresh : (writes.filterMap Write.newId?).Nodup) :
    made ∉ before.filterMap Write.newId? := by
  rw [split, List.filterMap_append, List.filterMap_cons_some makes] at fresh
  intro earlier
  exact List.disjoint_of_nodup_append fresh earlier List.mem_cons_self

theorem Stems.ne_of_notMem {α : Type} {descends : α → α → Prop} {key : α → Cell}
    {entity : Entity} {id : String} {made : List (Entity × String)} {rows : List α}
    (stems : Stems descends (fun row => IsOneOf made entity (key row)) [] rows)
    (new : (entity, id) ∉ made) : ∀ row ∈ rows, key row ≠ .text id := by
  intro row member same
  rcases stems row member with ⟨old, none, -⟩ | ⟨other, drawn, named⟩
  · cases none
  · rw [same] at named
    exact new (Cell.text.inj named ▸ drawn)

theorem descends_before (split : writes = before ++ creation :: after)
    (numeric : ∀ write ∈ writes, write.IsNumeric) :
    Descends empty (empty.writeAll before) (before.filterMap Write.newId?) := by
  apply descends_writeAll sound_empty
  intro write member
  exact numeric write (split ▸ List.mem_append_left _ member)

theorem isNext_createShipment (numeric : ∀ write ∈ writes, write.IsNumeric)
    (fresh : (writes.filterMap Write.newId?).Nodup)
    (few : writes.countP Write.isNumbered < Nat.pow 2 63) {id : String}
    {now : Calendar.Instant} {direction : Direction} {party : String}
    (split : writes = before ++ .createShipment id now direction party :: after) :
    IsNext Shipment.number ((empty.writeAll before).listShipments direction)
      ((empty.writeAll before).createShipment id now direction party).2 := by
  have sound := sound_writeAll before
  have new := (descends_before split numeric).shipments.ne_of_notMem (fresh_before split rfl fresh)
  obtain ⟨kept, room⟩ := room_before split rfl few
  exact ⟨_, _, kept.listShipments sound.isOpen direction,
    kept.createShipment room sound new now direction party,
    kept.toInt_newShipment room id now direction party⟩

theorem isNext_createRequisition (numeric : ∀ write ∈ writes, write.IsNumeric)
    (fresh : (writes.filterMap Write.newId?).Nodup)
    (few : writes.countP Write.isNumbered < Nat.pow 2 63) {id : String}
    {now : Calendar.Instant} {party : String}
    (split : writes = before ++ .createRequisition id now party :: after) :
    IsNext Requisition.number (empty.writeAll before).listRequisitions
      ((empty.writeAll before).createRequisition id now party).2 := by
  have sound := sound_writeAll before
  have new :=
    (descends_before split numeric).requisitions.ne_of_notMem (fresh_before split rfl fresh)
  obtain ⟨kept, room⟩ := room_before split rfl few
  have next := kept.toInt_newRequisition room id now party
  rw [Account.greatest_single] at next
  exact ⟨_, _, kept.listRequisitions sound.isOpen,
    kept.createRequisition room sound new now party, next⟩

end Creation

/-- Every run that writes no NaN, draws its ids once and makes fewer records than there are
numbers is told in order. -/
theorem orderly_writeAll {writes : List Write} (numeric : ∀ write ∈ writes, write.IsNumeric)
    (fresh : (writes.filterMap Write.newId?).Nodup)
    (few : writes.countP Write.isNumbered < Nat.pow 2 63) : Orderly writes := by
  have sound := sound_writeAll writes
  have kept := kept_writeAll writes few
  exact {
    shipmentIds := sound.shipmentIds
    lineIds := sound.lineIds
    requisitionIds := sound.requisitionIds
    shipmentNumbers := sound.nodup_shipmentNumbers
    requisitionNumbers := sound.nodup_requisitionNumbers
    shipmentsFromOne := kept.shipments.fromOne ShipmentRow.number fun _ => rfl
    requisitionsFromOne := kept.requisitions.fromOne RequisitionRow.number fun _ => rfl
    owned := owned_writeAll writes
    shipments direction := ⟨_, kept.listShipments sound.isOpen direction, rfl,
      kept.shipments.numbers.pairwise_filter direction⟩
    requisitions := ⟨_, kept.listRequisitions sound.isOpen, rfl,
      kept.requisitions.numbers.increasing.imp fun increases => increases rfl⟩
    lines shipmentId := ⟨_, linesOf_writeAll (numeric_history numeric) shipmentId,
      same_map_kept fun line member =>
        numeric_history numeric line (List.mem_filter.mp member).1⟩
    newShipments _ _ _ _ _ _ split := isNext_createShipment numeric fresh few split
    newRequisitions _ _ _ _ _ split := isNext_createRequisition numeric fresh few split }

/-! ### A number that is given twice -/

namespace Renumbered

/-- What comes before the number is given again. -/
def before : List Write :=
  [.createShipment "a" .epoch .inbound "Clinic",
    .createShipment "b" .epoch .inbound "Ward",
    .addLine "c" "a" ⟨"d", "D", "Gauze"⟩ (.stockIn ⟨none, none, 1, .zero⟩ .zero),
    .addLine "e" "b" ⟨"d", "D", "Gauze"⟩ (.service .zero none),
    .addLine "f" "a" ⟨"g", "G", "Tape"⟩ (.service .zero none),
    .setShipmentStatus "a" .verified,
    .deleteShipments ["b", "a"],
    .deleteShipments ["b"]]

def after : List Write :=
  [.updatePacks [("c", ⟨0x3ff0000000000000⟩)], .createRequisition "i" .epoch "Ward",
    .deleteLines ["k"], .createShipment "j" .epoch .outbound "Clinic"]

def writes : List Write :=
  before ++ .createShipment "h" .epoch .inbound "Ward" :: after

/-- The batch that names a verified shipment is refused, the other one frees the number of
the second shipment, and the third one gets it. -/
theorem orderly_renumbered :
    IsNext Shipment.number ((empty.writeAll before).listShipments .inbound)
      ((empty.writeAll before).createShipment "h" .epoch .inbound "Ward").2 ∧
    (∃ shipments, (empty.writeAll writes).listShipments .inbound = .ok shipments ∧
      shipments.map (fun shipment => (shipment.id, shipment.number)) = [("a", 1), ("h", 2)]) ∧
    ∃ lines, (empty.writeAll writes).linesOf "a" = .ok lines ∧
      Rows.same lines [⟨"c", "a", ⟨"d", "D", "Gauze"⟩,
          .stockIn ⟨none, none, 1, ⟨0x3ff0000000000000⟩⟩ .zero⟩,
        ⟨"f", "a", ⟨"g", "G", "Tape"⟩, .service .zero none⟩] = true := by
  have numeric : ∀ write ∈ writes, write.IsNumeric := by
    have zero : Binary64.zero.isNaN = false := by decide
    simp only [writes, before, after, List.cons_append, List.nil_append, List.forall_mem_cons]
    refine ⟨trivial, trivial, ⟨zero, zero⟩, zero, zero, trivial, trivial, trivial, trivial, ?_,
      trivial, trivial, trivial, List.forall_mem_nil _⟩
    exact List.forall_mem_singleton.mpr (by decide)
  have orderly : Orderly writes := orderly_writeAll numeric (by decide) (by decide)
  refine ⟨orderly.newShipments before "h" .epoch .inbound "Ward" after rfl, ?_, ?_⟩
  · obtain ⟨shipments, listed, same, -⟩ := orderly.shipments .inbound
    refine ⟨shipments, listed, ?_⟩
    rw [same]
    decide +kernel
  · obtain ⟨lines, listed, same⟩ := orderly.lines "a"
    have left : ((lineAccount.left (empty.history writes)).filter
        fun line => line.shipmentId = "a") =
        [⟨"c", "a", ⟨"d", "D", "Gauze"⟩, .stockIn ⟨none, none, 1, ⟨0x3ff0000000000000⟩⟩ .zero⟩,
          ⟨"f", "a", ⟨"g", "G", "Tape"⟩, .service .zero none⟩] := by decide +kernel
    rw [left] at same
    exact ⟨lines, listed, same⟩

end Renumbered

end Database

end Depot
