import Depot.Proofs.Database.Orderly

/-!
Contract: a batch of deletions is done as a whole or not at all.

A batch is done exactly when no id comes twice in it and every id names a record that may be
deleted at the start. A refused batch changes nothing, and names the first id that cannot be
added to the ids before it. A deletion in the middle of a batch sees the tables without the
records that come earlier in the batch: whether it tells of a record that is locked or of one
that is missing depends on these tables.

Owns: deletions in the middle of a batch, and the answers to whole batches.
Does not own: requests, which check before they hand over a batch
(`Depot.Proofs.Service.Requests`).
-/

namespace Depot.Database

/-! ### The three kinds of deletion -/

/-- The ids in the table of a kind of record. -/
def idsOf (database : Database) : Entity → List Cell
  | .shipment => database.shipments.map ShipmentRow.id
  | .line => database.lines.map LineRow.id
  | .requisition => database.requisitions.map RequisitionRow.id

def deleteOne (database : Database) : Entity → String → Except Fault Database
  | .shipment => database.deleteShipment
  | .line => database.deleteLine
  | .requisition => database.deleteRequisition

def deleteAll (database : Database) : Entity → List String → Database × Except Fault Nat
  | .shipment => database.deleteShipments
  | .line => database.deleteLines
  | .requisition => database.deleteRequisitions

/-- The tables without some records. The lines of a shipment go with it. -/
def without (database : Database) : Entity → List String → Database
  | .shipment => database.withoutShipments
  | .line => database.withoutLines
  | .requisition => database.withoutRequisitions

/-- Whether an id names a record that may be deleted: a new shipment, a line of a shipment
that is not locked, or a draft. -/
def Deletable (database : Database) : Entity → String → Prop
  | .shipment, id => ∃ shipment, database.shipmentById id = .ok (some shipment) ∧
      shipment.status = .new
  | .line, id => ∃ row ∈ database.lines, row.id = .text id ∧ ∃ shipment,
      row.shipmentId = .text shipment.id ∧
      database.shipmentById shipment.id = .ok (some shipment) ∧ shipment.linesLocked = false
  | .requisition, id => ∃ requisition, database.requisitionById id = .ok (some requisition) ∧
      requisition.status = .draft

/-- A database whose ids and numbers are there once, whose lines belong to shipments, and
whose shipments and requisitions can be read. -/
structure Intact (database : Database) : Prop where
  sound : database.Sound
  owned : database.Owned
  shipments : ∀ row ∈ database.shipments, ∃ shipment, row.read = .ok shipment
  requisitions : ∀ row ∈ database.requisitions, ∃ requisition, row.read = .ok requisition

theorem Kept.intact {database : Database} {events : List Event} (kept : Kept database events)
    (sound : database.Sound) (owned : database.Owned) : database.Intact where
  sound
  owned
  shipments row member := by
    rw [kept.shipments.table] at member
    obtain ⟨shipment, -, rfl⟩ := List.mem_map.mp member
    exact ⟨shipment, ShipmentRow.read_ofShipment shipment⟩
  requisitions row member := by
    rw [kept.requisitions.table] at member
    obtain ⟨requisition, -, rfl⟩ := List.mem_map.mp member
    exact ⟨requisition, RequisitionRow.read_ofRequisition requisition⟩

/-- Every run with fewer creations than numbers leaves an intact database. -/
theorem intact_writeAll {writes : List Write}
    (few : writes.countP Write.isNumbered < Nat.pow 2 63) : (empty.writeAll writes).Intact :=
  (kept_writeAll writes few).intact (sound_writeAll writes) (owned_writeAll writes)

/-! ### What may be deleted, by its row -/

theorem word_shipmentStatus_injective : Function.Injective ShipmentStatus.word := by
  intro left right same
  have reads := read?_word_shipmentStatus left
  rw [same, read?_word_shipmentStatus] at reads
  exact (Option.some.inj reads).symm

theorem word_requisitionStatus_injective : Function.Injective RequisitionStatus.word := by
  intro left right same
  have reads := read?_word_requisitionStatus left
  rw [same, read?_word_requisitionStatus] at reads
  exact (Option.some.inj reads).symm

namespace Intact

variable {database : Database}

theorem deletable_shipment (intact : database.Intact) (id : String) :
    database.Deletable .shipment id ↔ database.CanDeleteShipment id := by
  constructor
  · rintro ⟨shipment, found, new⟩
    obtain ⟨row, inside, named, reads⟩ := (intact.sound.shipmentById_eq_ok ..).mp found
    obtain ⟨-, -, status⟩ := (intact.sound.shipments row inside).of_read reads
    refine ⟨row, ?_, by rw [status, new]⟩
    exact (find?_eq_some_iff ShipmentRow.id intact.sound.shipmentIds id row).mpr ⟨inside, named⟩
  · rintro ⟨row, found, new⟩
    obtain ⟨inside, named⟩ :=
      (find?_eq_some_iff ShipmentRow.id intact.sound.shipmentIds id row).mp found
    obtain ⟨shipment, reads⟩ := intact.shipments row inside
    obtain ⟨-, -, status⟩ := (intact.sound.shipments row inside).of_read reads
    refine ⟨shipment, (intact.sound.shipmentById_eq_ok ..).mpr ⟨row, inside, named, reads⟩, ?_⟩
    exact word_shipmentStatus_injective (Cell.text.inj (status.symm.trans new))

theorem deletable_requisition (intact : database.Intact) (id : String) :
    database.Deletable .requisition id ↔ database.CanDeleteRequisition id := by
  constructor
  · rintro ⟨requisition, found, draft⟩
    obtain ⟨row, inside, named, reads⟩ := (intact.sound.requisitionById_eq_ok ..).mp found
    obtain ⟨-, status⟩ := (intact.sound.requisitions row inside).of_read reads
    refine ⟨row, ?_, by rw [status, draft]⟩
    exact (find?_eq_some_iff RequisitionRow.id intact.sound.requisitionIds id row).mpr
      ⟨inside, named⟩
  · rintro ⟨row, found, draft⟩
    obtain ⟨inside, named⟩ :=
      (find?_eq_some_iff RequisitionRow.id intact.sound.requisitionIds id row).mp found
    obtain ⟨requisition, reads⟩ := intact.requisitions row inside
    obtain ⟨-, status⟩ := (intact.sound.requisitions row inside).of_read reads
    refine ⟨requisition,
      (intact.sound.requisitionById_eq_ok ..).mpr ⟨row, inside, named, reads⟩, ?_⟩
    exact word_requisitionStatus_injective (Cell.text.inj (status.symm.trans draft))

/-- The shipment of a line that is there is found and can be read. -/
theorem ownerRow?_of_lineRow? (intact : database.Intact) {id : String} {row : LineRow}
    (found : database.lineRow? id = some row) :
    ∃ owner shipment, database.ownerRow? id = some owner ∧ owner.read = .ok shipment ∧
      row.shipmentId = .text shipment.id ∧
      database.shipmentById shipment.id = .ok (some shipment) := by
  obtain ⟨inside, -⟩ := (find?_eq_some_iff LineRow.id intact.sound.lineIds id row).mp found
  obtain ⟨owner, there, mine⟩ := intact.owned row inside
  obtain ⟨shipment, reads⟩ := intact.shipments owner there
  obtain ⟨named, -⟩ := (intact.sound.shipments owner there).of_read reads
  have belongs : row.shipmentId = .text shipment.id := mine.symm.trans named
  refine ⟨owner, shipment, ?_, reads, belongs,
    (intact.sound.shipmentById_eq_ok ..).mpr ⟨owner, there, named, reads⟩⟩
  rw [ownerRow?, found, Option.bind_some, belongs]
  simp only [Cell.agrees_text]
  exact (find?_eq_some_iff ShipmentRow.id intact.sound.shipmentIds shipment.id owner).mpr
    ⟨there, named⟩

theorem deletable_line (intact : database.Intact) (id : String) :
    database.Deletable .line id ↔ database.CanDeleteLine id := by
  constructor
  · rintro ⟨row, inside, named, shipment, belongs, found, unlocked⟩
    have isRow : database.lineRow? id = some row :=
      (find?_eq_some_iff LineRow.id intact.sound.lineIds id row).mpr ⟨inside, named⟩
    obtain ⟨owner, same, owned, reads, mine, foundSame⟩ := intact.ownerRow?_of_lineRow? isRow
    rw [belongs] at mine
    rw [← Cell.text.inj mine, found] at foundSame
    cases foundSame
    exact ⟨owner, shipment, owned, reads, unlocked⟩
  · rintro ⟨owner, shipment, owned, reads, unlocked⟩
    obtain ⟨row, isRow, -⟩ := Option.bind_eq_some_iff.mp owned
    obtain ⟨inside, named⟩ := (find?_eq_some_iff LineRow.id intact.sound.lineIds id row).mp isRow
    obtain ⟨sameOwner, same, ownedSame, readsSame, mine, found⟩ :=
      intact.ownerRow?_of_lineRow? isRow
    rw [owned] at ownedSame
    cases ownedSame
    rw [reads] at readsSame
    cases readsSame
    exact ⟨row, inside, named, shipment, mine, found, unlocked⟩

end Intact

/-! ### One deletion in the middle of a batch -/

section Lookup

variable {α : Type} (key : α → Cell) (names : List String) (id : String) (rows : List α)

/-- A row is found among those that are left if its id is not among those that are gone. -/
theorem find?_filter_isOneOf :
    (rows.filter fun row => !(key row).isOneOf names).find? (fun row => key row = .text id) =
      if id ∈ names then none else rows.find? fun row => key row = .text id := by
  have kept : ∀ row, key row = .text id → (!(key row).isOneOf names) = decide (id ∉ names) := by
    intro row same
    rw [same, Cell.isOneOf_text]
    simp
  rw [List.find?_filter]
  split
  next gone =>
    refine List.find?_eq_none.mpr ?_
    intro row _
    rw [decide_eq_true_eq, not_and']
    intro same
    simp [kept row (of_decide_eq_true same), gone]
  next stays =>
    congr 1
    funext row
    by_cases same : key row = .text id
    · simp [same, stays]
    · simp [same]

theorem isSome_find?_eq :
    (rows.find? fun row => key row = .text id).isSome = decide (Cell.text id ∈ rows.map key) := by
  rw [Bool.eq_iff_iff, List.find?_isSome, decide_eq_true_eq, List.mem_map]
  simp

end Lookup

theorem isOneOf_append (early later : List String) (cell : Cell) :
    cell.isOneOf (early ++ later) = (cell.isOneOf early || cell.isOneOf later) :=
  List.any_append

/-- Records that go one after the other are gone together. -/
theorem without_without (database : Database) (entity : Entity) (early later : List String) :
    (database.without entity early).without entity later =
      database.without entity (early ++ later) := by
  cases entity with
  | shipment =>
      simp only [without, withoutShipments, List.filter_filter, isOneOf_append, Bool.not_or,
        Bool.and_comm]
  | line =>
      simp only [without, withoutLines, List.filter_filter, isOneOf_append, Bool.not_or,
        Bool.and_comm]
  | requisition =>
      simp only [without, withoutRequisitions, List.filter_filter, isOneOf_append, Bool.not_or,
        Bool.and_comm]

theorem without_nil (database : Database) (entity : Entity) :
    database.without entity [] = database := by
  cases entity with
  | shipment => simp [without, withoutShipments, Cell.isOneOf]
  | line => simp [without, withoutLines, Cell.isOneOf]
  | requisition => simp [without, withoutRequisitions, Cell.isOneOf]

namespace Intact

variable {database : Database}

/-- Records that go leave the others intact. -/
theorem without (intact : database.Intact) (entity : Entity) (ids : List String) :
    (database.without entity ids).Intact := by
  cases entity with
  | shipment =>
      have sound : (database.withoutShipments ids).Sound := intact.sound.restrict rfl
        List.filter_sublist List.filter_sublist (List.Sublist.refl _)
      refine ⟨sound, ?_, ?_, intact.requisitions⟩
      · intro row member
        obtain ⟨inside, stays⟩ := List.mem_filter.mp member
        obtain ⟨owner, there, mine⟩ := intact.owned row inside
        exact ⟨owner, List.mem_filter.mpr ⟨there, mine ▸ stays⟩, mine⟩
      · intro row member
        exact intact.shipments row (List.mem_filter.mp member).1
  | line =>
      have sound : (database.withoutLines ids).Sound := intact.sound.restrict rfl
        (List.Sublist.refl _) List.filter_sublist (List.Sublist.refl _)
      refine ⟨sound, ?_, intact.shipments, intact.requisitions⟩
      intro row member
      exact intact.owned row (List.mem_filter.mp member).1
  | requisition =>
      have sound : (database.withoutRequisitions ids).Sound := intact.sound.restrict rfl
        (List.Sublist.refl _) (List.Sublist.refl _) List.filter_sublist
      refine ⟨sound, intact.owned, intact.shipments, ?_⟩
      intro row member
      exact intact.requisitions row (List.mem_filter.mp member).1

/-- In the middle of a batch a record may be deleted if it may be at the start and has not
gone yet. -/
theorem deletable_without (intact : database.Intact) (entity : Entity) (ids : List String)
    (id : String) :
    (database.without entity ids).Deletable entity id ↔
      id ∉ ids ∧ database.Deletable entity id := by
  have after := intact.without entity ids
  cases entity with
  | shipment =>
      have found : (database.without .shipment ids).shipmentRow? id = _ :=
        find?_filter_isOneOf ShipmentRow.id ids id database.shipments
      rw [after.deletable_shipment, intact.deletable_shipment, CanDeleteShipment, found]
      by_cases gone : id ∈ ids
      · simp [gone]
      · simp [gone, CanDeleteShipment, shipmentRow?]
  | line =>
      have found : (database.without .line ids).lineRow? id = _ :=
        find?_filter_isOneOf LineRow.id ids id database.lines
      rw [after.deletable_line, intact.deletable_line, CanDeleteLine, ownerRow?, found]
      by_cases gone : id ∈ ids
      · simp [gone]
      · simp [gone, CanDeleteLine, ownerRow?, lineRow?, Database.without, withoutLines]
  | requisition =>
      have found : (database.without .requisition ids).requisitionRow? id = _ :=
        find?_filter_isOneOf RequisitionRow.id ids id database.requisitions
      rw [after.deletable_requisition, intact.deletable_requisition, CanDeleteRequisition, found]
      by_cases gone : id ∈ ids
      · simp [gone]
      · simp [gone, CanDeleteRequisition, requisitionRow?]

/-- A record that may be deleted is. -/
theorem deleteOne_eq_ok (intact : database.Intact) {entity : Entity} {id : String}
    (deletable : database.Deletable entity id) :
    database.deleteOne entity id = .ok (database.without entity [id]) := by
  cases entity with
  | shipment =>
      obtain ⟨row, found, new⟩ := (intact.deletable_shipment id).mp deletable
      have gone := database.foldl_withoutShipment [id]
      simp only [deleteOne, deleteShipment, found, new, ↓reduceIte]
      exact congrArg Except.ok gone
  | line =>
      have gone := database.foldl_withoutLine [id]
      rw [deleteOne, deleteLine_eq_ok ((intact.deletable_line id).mp deletable)]
      exact congrArg Except.ok gone
  | requisition =>
      obtain ⟨row, found, draft⟩ := (intact.deletable_requisition id).mp deletable
      have gone := database.foldl_withoutRequisition [id]
      simp only [deleteOne, deleteRequisition, found, draft, ↓reduceIte]
      exact congrArg Except.ok gone

/-- A record that may not be deleted is locked if it is there, and missing otherwise. -/
theorem deleteOne_eq_error (intact : database.Intact) {entity : Entity} {id : String}
    (kept : ¬database.Deletable entity id) :
    database.deleteOne entity id =
      .error (refusal entity id (decide (Cell.text id ∈ database.idsOf entity))) := by
  cases entity with
  | shipment =>
      rw [intact.deletable_shipment] at kept
      have there := isSome_find?_eq ShipmentRow.id id database.shipments
      rw [idsOf, ← there, deleteOne, deleteShipment]
      cases found : database.shipmentRow? id with
      | none => rw [shipmentRow?] at found; simp [found]
      | some row =>
          have notNew : row.status ≠ .text ShipmentStatus.new.word :=
            fun new => kept ⟨row, found, new⟩
          rw [shipmentRow?] at found
          simp [found, notNew]
  | line =>
      rw [intact.deletable_line] at kept
      have there := isSome_find?_eq LineRow.id id database.lines
      rw [idsOf, ← there, deleteOne, deleteLine]
      cases found : database.lineRow? id with
      | none =>
          rw [ownerRow?, found]
          rw [lineRow?] at found
          simp [found]
      | some row =>
          -- The shipment of a line that is there can be read, so only its lock refuses.
          obtain ⟨owner, shipment, owned, reads, -⟩ := intact.ownerRow?_of_lineRow? found
          have locked : shipment.linesLocked = true :=
            Bool.of_not_eq_false fun unlocked => kept ⟨owner, shipment, owned, reads, unlocked⟩
          rw [lineRow?] at found
          simp [owned, reads, found, locked, bind, Except.bind]
  | requisition =>
      rw [intact.deletable_requisition] at kept
      have there := isSome_find?_eq RequisitionRow.id id database.requisitions
      rw [idsOf, ← there, deleteOne, deleteRequisition]
      cases found : database.requisitionRow? id with
      | none => rw [requisitionRow?] at found; simp [found]
      | some row =>
          have notDraft : row.status ≠ .text RequisitionStatus.draft.word :=
            fun draft => kept ⟨row, found, draft⟩
          rw [requisitionRow?] at found
          simp [found, notDraft]

end Intact

/-! ### Whole batches -/

/-- Whether a batch of deletions can be done: no id comes twice, and each names a record
that may be deleted. -/
def AllDeletable (database : Database) (entity : Entity) (ids : List String) : Prop :=
  ids.Nodup ∧ ∀ id ∈ ids, database.Deletable entity id

namespace AllDeletable

variable {database : Database} {entity : Entity} {early later : List String}

theorem of_append (all : database.AllDeletable entity (early ++ later)) :
    database.AllDeletable entity early :=
  ⟨all.1.of_append_left, fun id member => all.2 id (List.mem_append_left _ member)⟩

theorem append_singleton (all : database.AllDeletable entity early) {id : String} :
    database.AllDeletable entity (early ++ [id]) ↔
      id ∉ early ∧ database.Deletable entity id := by
  constructor
  · rintro ⟨distinct, each⟩
    refine ⟨?_, each id (List.mem_append_right _ (List.mem_singleton_self id))⟩
    intro member
    exact List.disjoint_of_nodup_append distinct member (List.mem_singleton_self id)
  · rintro ⟨new, deletable⟩
    refine ⟨List.nodup_append.mpr ⟨all.1, List.nodup_singleton id, ?_⟩, ?_⟩
    · rintro other member _ single rfl
      exact new (List.mem_singleton.mp single ▸ member)
    · exact forall_mem_append_singleton all.2 deletable

end AllDeletable

/-- The refusal of a batch names the first id that cannot be added to those before it; the
tables that it is told from are without the records that come before it. -/
def RefusedAt (database : Database) (entity : Entity) (ids : List String) (fault : Fault) : Prop :=
  ∃ early id later, ids = early ++ id :: later ∧ database.AllDeletable entity early ∧
    ¬database.AllDeletable entity (early ++ [id]) ∧
    fault = if Cell.text id ∈ (database.without entity early).idsOf entity
      then .locked entity id else .missing entity id

/-- What comes of the rest of a batch after its first ids are gone. -/
theorem Intact.batch_without {database : Database} (intact : database.Intact) {entity : Entity}
    (ids : List String) : ∀ {early : List String}, database.AllDeletable entity early →
    (database.AllDeletable entity (early ++ ids) ∧
      (database.without entity early).batch (deleteOne · entity) ids =
        .ok (database.without entity (early ++ ids))) ∨
    ∃ fault, database.RefusedAt entity (early ++ ids) fault ∧
      (database.without entity early).batch (deleteOne · entity) ids = .error fault := by
  induction ids with
  | nil =>
      intro early all
      rw [List.append_nil]
      exact .inl ⟨all, rfl⟩
  | cons id ids inductionHypothesis =>
      intro early all
      have split : early ++ id :: ids = early ++ [id] ++ ids := List.append_cons early id ids
      have here := intact.without entity early
      rw [batch]
      by_cases deletable : (database.without entity early).Deletable entity id
      · have more : database.AllDeletable entity (early ++ [id]) :=
          all.append_singleton.mpr ((intact.deletable_without entity early id).mp deletable)
        rw [here.deleteOne_eq_ok deletable, without_without, split]
        exact inductionHypothesis more
      · have stuck : ¬database.AllDeletable entity (early ++ [id]) := by
          rw [all.append_singleton, ← intact.deletable_without]
          exact deletable
        rw [here.deleteOne_eq_error deletable]
        refine .inr ⟨_, ⟨early, id, ids, rfl, all, stuck, ?_⟩, rfl⟩
        simp only [refusal, decide_eq_true_eq]

/-- What a batch of deletions answers, and what it leaves. -/
structure AllOrNothing (database : Database) (entity : Entity) (ids : List String) : Prop where
  /-- A batch is done exactly when it can be done from the start. -/
  accepts : (∃ count, (database.deleteAll entity ids).2 = .ok count) ↔
    database.AllDeletable entity ids
  done : ∀ count, (database.deleteAll entity ids).2 = .ok count →
    count = ids.length ∧ (database.deleteAll entity ids).1 = database.without entity ids
  refused : ∀ fault, (database.deleteAll entity ids).2 = .error fault →
    (database.deleteAll entity ids).1 = database ∧ database.RefusedAt entity ids fault

theorem deleteAll_eq (database : Database) (entity : Entity) (ids : List String) :
    database.deleteAll entity ids = database.runBatch (deleteOne · entity) ids := by
  cases entity <;> rfl

/-- Whatever is deleted from an intact database, and whichever ids are given. -/
theorem allOrNothing {database : Database} (intact : database.Intact) (entity : Entity)
    (ids : List String) : database.AllOrNothing entity ids := by
  have start : database.AllDeletable entity [] := ⟨List.nodup_nil, List.forall_mem_nil _⟩
  have ran := intact.batch_without ids start
  rw [without_nil, List.nil_append] at ran
  rcases ran with ⟨all, batch⟩ | ⟨fault, refused, batch⟩
  · have whole : database.deleteAll entity ids = (database.without entity ids, .ok ids.length) := by
      rw [deleteAll_eq, runBatch_eq_ok intact.sound.isOpen batch]
    refine ⟨?_, ?_, ?_⟩
    · rw [whole]
      exact iff_of_true ⟨_, rfl⟩ all
    · intro count answered
      rw [whole] at answered ⊢
      cases answered
      exact ⟨rfl, rfl⟩
    · intro fault answered
      rw [whole] at answered
      cases answered
  · have nothing : database.deleteAll entity ids = (database, .error fault) := by
      rw [deleteAll_eq, runBatch, changing, if_pos intact.sound.isOpen, batch]
    refine ⟨?_, ?_, ?_⟩
    · rw [nothing]
      refine iff_of_false (by rintro ⟨count, ⟨⟩⟩) ?_
      obtain ⟨early, id, later, rfl, -, stuck, -⟩ := refused
      intro all
      rw [List.append_cons] at all
      exact stuck all.of_append
    · intro count answered
      rw [nothing] at answered
      cases answered
    · intro other answered
      rw [nothing] at answered ⊢
      cases answered
      exact ⟨rfl, refused⟩

/-! ### A store with something locked -/

namespace MixedStore

/-- A new shipment, a verified one, a line of each, and a draft. -/
def writes : List Write :=
  [.createShipment "a" .epoch .inbound "Clinic",
    .createShipment "b" .epoch .outbound "Ward",
    .addLine "c" "a" ⟨"d", "D", "Gauze"⟩ (.service .zero none),
    .addLine "e" "b" ⟨"d", "D", "Gauze"⟩ (.service .zero (some "early")),
    .setShipmentStatus "b" .verified,
    .createRequisition "f" .epoch "Ward"]

def store : Database := empty.writeAll writes

/-- A repeated id is missing when it comes again, a line of a locked shipment is locked, and
a draft goes. -/
theorem allOrNothing_mixedStore :
    (store.AllOrNothing .shipment ["a", "a"] ∧
      (store.deleteAll .shipment ["a", "a"]).2.toOption = none ∧
      Cell.text "a" ∉ (store.without .shipment ["a"]).idsOf .shipment) ∧
    (store.AllOrNothing .line ["c", "e"] ∧
      (store.deleteAll .line ["c", "e"]).2.toOption = none ∧
      Cell.text "e" ∈ (store.without .line ["c"]).idsOf .line) ∧
    store.AllOrNothing .requisition ["f"] ∧
      (store.deleteAll .requisition ["f"]).2.toOption = some 1 := by
  have intact : store.Intact := intact_writeAll (by decide)
  exact ⟨⟨allOrNothing intact .shipment _, by decide +kernel, by decide +kernel⟩,
    ⟨allOrNothing intact .line _, by decide +kernel, by decide +kernel⟩,
    allOrNothing intact .requisition _, by decide +kernel⟩

end MixedStore

end Depot.Database
