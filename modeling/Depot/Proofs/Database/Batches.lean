import Depot.Database.Lines
import Depot.Database.Requisitions
import Depot.Proofs.Database.Reading
import Mathlib.Data.List.Nodup

/-!
Contract: what batches do when no entry of them is refused.

A batch goes through when every entry can be done at the start and no entry spoils a later
one. Deletions of different records do not spoil one another, and pack counts never do. The
database afterwards is described at once, not entry by entry.

Owns: the batches that go through, and the databases after them.
Does not own: requests, which check before they hand over a batch
(`Depot.Proofs.Service.Requests`).
-/

namespace Depot.Database

variable {α β : Type}

/-- A batch whose entries can all be done, and do not spoil those after them, does all of
them. -/
theorem batch_eq_ok {one : Database → α → Except Fault Database}
    {change : Database → α → Database} {Fits : Database → α → Prop} {Apart : α → α → Prop}
    (does : ∀ database item, Fits database item → one database item = .ok (change database item))
    (keeps : ∀ database item other, Apart item other → Fits database other →
      Fits (change database item) other)
    {items : List α} (apart : items.Pairwise Apart) {database : Database}
    (fits : ∀ item ∈ items, Fits database item) :
    database.batch one items = .ok (items.foldl change database) := by
  induction items generalizing database with
  | nil => rfl
  | cons item items inductionHypothesis =>
      -- The entries that are left still fit, since the first one is apart from each of them.
      obtain ⟨fromFirst, rest⟩ := List.pairwise_cons.mp apart
      rw [batch]
      refine bind_eq_ok.mpr ⟨_, does database item (fits item List.mem_cons_self), ?_⟩
      refine inductionHypothesis rest ?_
      intro other member
      exact keeps database item other (fromFirst other member)
        (fits other (List.mem_cons_of_mem item member))

theorem runBatch_eq_ok {database after : Database} (isOpen : database.isOpen = true)
    {one : Database → α → Except Fault Database} {items : List α}
    (ran : database.batch one items = .ok after) :
    database.runBatch one items = (after, .ok items.length) := by
  rw [runBatch, changing, if_pos isOpen, ran]

/-- A batch goes through as a whole or changes nothing. -/
theorem runBatch_cases {database : Database} (isOpen : database.isOpen = true)
    {one : Database → α → Except Fault Database} {change : Database → α → Database}
    (does : ∀ database item after, one database item = .ok after → after = change database item)
    (items : List α) :
    database.runBatch one items = (items.foldl change database, .ok items.length) ∨
      ∃ fault, database.runBatch one items = (database, .error fault) := by
  have folds : ∀ (items : List α) (before after : Database),
      before.batch one items = .ok after → after = items.foldl change before := by
    intro items
    induction items with
    | nil =>
        intro before after ran
        cases ran
        rfl
    | cons item items inductionHypothesis =>
        intro before after ran
        obtain ⟨middle, first, rest⟩ := bind_eq_ok.mp ran
        rw [List.foldl_cons, ← does before item middle first]
        exact inductionHypothesis middle after rest
  rw [runBatch, changing, if_pos isOpen]
  cases ran : database.batch one items with
  | error fault => exact .inr ⟨fault, rfl⟩
  | ok after => exact .inl (by rw [folds items database after ran])

/-- What every entry of a batch needs when its turn comes was there at the start, if doing an
entry never brings it about. -/
theorem forall_of_runBatch {database : Database} (isOpen : database.isOpen = true)
    {one : Database → α → Except Fault Database} {Fits : Database → α → Prop}
    (needs : ∀ database item after, one database item = .ok after → Fits database item)
    (brings : ∀ database item after other, one database item = .ok after → Fits after other →
      Fits database other)
    {items : List α} {count : Nat} (accepted : (database.runBatch one items).2 = .ok count) :
    ∀ item ∈ items, Fits database item := by
  have all : ∀ (items : List α) (before after : Database), before.batch one items = .ok after →
      ∀ item ∈ items, Fits before item := by
    intro items
    induction items with
    | nil => exact fun before after ran => List.forall_mem_nil _
    | cons item items inductionHypothesis =>
        intro before after ran
        obtain ⟨middle, first, rest⟩ := bind_eq_ok.mp ran
        refine List.forall_mem_cons.mpr ⟨needs before item middle first, ?_⟩
        intro other member
        exact brings before item middle other first
          (inductionHypothesis middle after rest other member)
  rw [runBatch, changing, if_pos isOpen] at accepted
  cases ran : database.batch one items with
  | error fault =>
      rw [ran] at accepted
      cases accepted
  | ok after => exact all items database after ran

/-! ### Rows that are found and rows that are dropped -/

/-- Whether the cell is one of the texts. -/
def Cell.isOneOf (names : List String) (cell : Cell) : Bool :=
  names.any fun name => cell = .text name

@[simp]
theorem Cell.isOneOf_text (names : List String) (name : String) :
    (Cell.text name).isOneOf names = names.contains name := by
  rw [Bool.eq_iff_iff]
  simp [isOneOf]

/-- Rows dropped for one id after the other are dropped for all of them at once. -/
theorem foldl_filter_ne (key : α → Cell) (ids : List String) (rows : List α) :
    ids.foldl (fun rows id => rows.filter fun row => key row ≠ .text id) rows =
      rows.filter fun row => !(key row).isOneOf ids := by
  induction ids generalizing rows with
  | nil => simp [Cell.isOneOf]
  | cons id ids inductionHypothesis =>
      rw [List.foldl_cons, inductionHypothesis, List.filter_filter]
      refine List.filter_congr ?_
      intro row member
      simp [Cell.isOneOf, Bool.and_comm]

/-- A row is still found when rows with another id are dropped. -/
theorem find?_filter_ne (key : α → Cell) {id other : String} (differs : id ≠ other)
    (rows : List α) :
    (rows.filter fun row => key row ≠ .text id).find? (fun row => key row = .text other) =
      rows.find? fun row => key row = .text other := by
  rw [List.find?_filter]
  congr 1
  funext row
  have apart : key row = .text other → key row ≠ .text id := by
    intro same back
    exact differs (Cell.text.inj (back.symm.trans same))
  by_cases same : key row = .text other
  · simp [same, Ne.symm differs]
  · simp [same]

/-- A row is found under its id when no other has it. -/
theorem find?_eq_some_iff (key : α → Cell) {rows : List α} (distinct : (rows.map key).Nodup)
    (id : String) (row : α) :
    rows.find? (fun row => key row = .text id) = some row ↔ row ∈ rows ∧ key row = .text id := by
  constructor
  · intro found
    exact ⟨List.mem_of_find?_eq_some found, by simpa using List.find?_some found⟩
  · rintro ⟨member, named⟩
    cases found : rows.find? (fun row => key row = .text id) with
    | none =>
        have missing := List.find?_eq_none.mp found row member
        simp [named] at missing
    | some other =>
        have inside := List.mem_of_find?_eq_some found
        have same : key other = .text id := by simpa using List.find?_some found
        exact congrArg some (List.inj_on_of_nodup_map distinct inside member
          (same.trans named.symm))

/-! ### Lines -/

/-- Whether a line is there and belongs to a shipment that is not locked. -/
def CanDeleteLine (database : Database) (id : String) : Prop :=
  ∃ owner shipment, database.ownerRow? id = some owner ∧ owner.read = .ok shipment ∧
    shipment.linesLocked = false

def withoutLines (database : Database) (ids : List String) : Database :=
  { database with lines := database.lines.filter fun row => !row.id.isOneOf ids }

theorem foldl_withoutLine (database : Database) (ids : List String) :
    ids.foldl withoutLine database = database.withoutLines ids := by
  rw [withoutLines, ← foldl_filter_ne]
  induction ids generalizing database with
  | nil => rfl
  | cons id ids inductionHypothesis =>
      rw [List.foldl_cons, inductionHypothesis]
      rfl

theorem deleteLine_eq_ok {database : Database} {id : String}
    (can : database.CanDeleteLine id) :
    database.deleteLine id = .ok (database.withoutLine id) := by
  obtain ⟨owner, shipment, owned, reads, unlocked⟩ := can
  simp only [deleteLine, owned, reads]
  simp [bind, Except.bind, unlocked]

/-- A line that is deleted could be deleted. -/
theorem of_deleteLine {database after : Database} {id : String}
    (deleted : database.deleteLine id = .ok after) :
    database.CanDeleteLine id ∧ after = database.withoutLine id := by
  unfold deleteLine at deleted
  split at deleted
  next => cases deleted
  next owner owned =>
    obtain ⟨shipment, reads, deleted⟩ := bind_eq_ok.mp deleted
    cases locked : shipment.linesLocked with
    | true => simp [locked] at deleted
    | false =>
        simp only [locked, Bool.false_eq_true, ↓reduceIte, Except.ok.injEq] at deleted
        exact ⟨⟨owner, shipment, owned, reads, locked⟩, deleted.symm⟩

theorem deleteLines_cases {database : Database} (isOpen : database.isOpen = true)
    (ids : List String) :
    database.deleteLines ids = (database.withoutLines ids, .ok ids.length) ∨
      ∃ fault, database.deleteLines ids = (database, .error fault) := by
  rw [← foldl_withoutLine]
  exact runBatch_cases isOpen (fun _ _ _ deleted => (of_deleteLine deleted).2) ids

theorem CanDeleteLine.withoutLine {database : Database} {id other : String}
    (differs : id ≠ other) (can : database.CanDeleteLine other) :
    (database.withoutLine id).CanDeleteLine other := by
  obtain ⟨owner, shipment, owned, rest⟩ := can
  refine ⟨owner, shipment, ?_, rest⟩
  rw [← owned]
  have found : (database.withoutLine id).lineRow? other = database.lineRow? other :=
    find?_filter_ne LineRow.id differs database.lines
  rw [ownerRow?, ownerRow?, found]
  rfl

/-- Deletions make no other line deletable. -/
theorem CanDeleteLine.of_withoutLine {database : Database} {id other : String}
    (can : (database.withoutLine id).CanDeleteLine other) : database.CanDeleteLine other := by
  by_cases same : id = other
  · obtain ⟨owner, shipment, owned, -⟩ := can
    obtain ⟨row, found, -⟩ := Option.bind_eq_some_iff.mp owned
    have inside := List.mem_of_find?_eq_some found
    have named : row.id = .text other := by simpa using List.find?_some found
    have kept : row.id ≠ .text id := by simpa using (List.mem_filter.mp inside).2
    exact absurd (same ▸ named) kept
  · obtain ⟨owner, shipment, owned, rest⟩ := can
    refine ⟨owner, shipment, ?_, rest⟩
    have found : (database.withoutLine id).lineRow? other = database.lineRow? other :=
      find?_filter_ne LineRow.id same database.lines
    rw [ownerRow?, found] at owned
    exact owned

/-- A batch of deletions that goes through names lines that could all be deleted before. -/
theorem canDeleteLine_of_deleteLines {database : Database} (isOpen : database.isOpen = true)
    {ids : List String} {count : Nat} (accepted : (database.deleteLines ids).2 = .ok count) :
    ∀ id ∈ ids, database.CanDeleteLine id := by
  refine forall_of_runBatch isOpen ?_ ?_ accepted
  · exact fun database id after deleted => (of_deleteLine deleted).1
  · intro database id after other deleted can
    rw [(of_deleteLine deleted).2] at can
    exact can.of_withoutLine

/-- Different lines of shipments that are not locked are deleted together. -/
theorem deleteLines_eq_ok {database : Database} (isOpen : database.isOpen = true)
    {ids : List String} (distinct : ids.Nodup) (can : ∀ id ∈ ids, database.CanDeleteLine id) :
    database.deleteLines ids = (database.withoutLines ids, .ok ids.length) := by
  rw [← foldl_withoutLine]
  refine runBatch_eq_ok isOpen (batch_eq_ok ?_ ?_ distinct can)
  · intro database id can
    exact deleteLine_eq_ok can
  · intro database id other differs can
    exact can.withoutLine differs

/-! ### Pack counts -/

/-- Whether a line of stock has the id. -/
def CanSetPacks (database : Database) (change : String × Decimal.Binary64) : Prop :=
  (database.lineRow? change.1).any isStockRow = true

/-- The row with a pack count, if it is the row that the count is for. -/
def LineRow.repack (row : LineRow) (change : String × Decimal.Binary64) : LineRow :=
  if row.id = .text change.1 && isStockRow row then
    { row with packs := (Cell.ofDouble change.2).stored .real }
  else row

def withAllPacks (database : Database) (changes : List (String × Decimal.Binary64)) : Database :=
  { database with lines := database.lines.map fun row => changes.foldl LineRow.repack row }

theorem foldl_withPacks (database : Database) (changes : List (String × Decimal.Binary64)) :
    changes.foldl (fun database change => database.withPacks change.1 change.2) database =
      database.withAllPacks changes := by
  induction changes generalizing database with
  | nil => simp [withAllPacks]
  | cons change changes inductionHypothesis =>
      rw [List.foldl_cons, inductionHypothesis, withAllPacks, withAllPacks, withPacks]
      simp only [List.map_map]
      rfl

theorem LineRow.id_repack (row : LineRow) (change : String × Decimal.Binary64) :
    (row.repack change).id = row.id := by
  unfold repack
  split <;> rfl

theorem LineRow.shipmentId_repack (row : LineRow) (change : String × Decimal.Binary64) :
    (row.repack change).shipmentId = row.shipmentId := by
  unfold repack
  split <;> rfl

theorem LineRow.id_foldl_repack (row : LineRow) (changes : List (String × Decimal.Binary64)) :
    (changes.foldl LineRow.repack row).id = row.id := by
  induction changes generalizing row with
  | nil => rfl
  | cons change changes inductionHypothesis =>
      rw [List.foldl_cons, inductionHypothesis, id_repack]

theorem LineRow.shipmentId_foldl_repack (row : LineRow)
    (changes : List (String × Decimal.Binary64)) :
    (changes.foldl LineRow.repack row).shipmentId = row.shipmentId := by
  induction changes generalizing row with
  | nil => rfl
  | cons change changes inductionHypothesis =>
      rw [List.foldl_cons, inductionHypothesis, shipmentId_repack]

theorem isStockRow_repack (row : LineRow) (change : String × Decimal.Binary64) :
    isStockRow (row.repack change) = isStockRow row := by
  unfold LineRow.repack
  split <;> rfl

/-- Counts neither make lines nor unmake them. -/
theorem canSetPacks_withPacks {database : Database} (change other : String × Decimal.Binary64) :
    (database.withPacks change.1 change.2).CanSetPacks other ↔ database.CanSetPacks other := by
  have found : (database.withPacks change.1 change.2).lineRow? other.1 =
      (database.lineRow? other.1).map fun row => row.repack change := by
    have repacked : (database.withPacks change.1 change.2).lines =
        database.lines.map fun row => row.repack change := rfl
    rw [lineRow?, repacked, List.find?_map]
    simp only [Function.comp_def, LineRow.id_repack]
    rfl
  rw [CanSetPacks, CanSetPacks, found]
  cases database.lineRow? other.1 with
  | none => exact Iff.rfl
  | some row => rw [Option.map_some, Option.any_some, Option.any_some, isStockRow_repack]

theorem of_setPacks {database after : Database} {change : String × Decimal.Binary64}
    (stored : database.setPacks change = .ok after) :
    database.CanSetPacks change ∧ after = database.withPacks change.1 change.2 := by
  unfold setPacks at stored
  split at stored
  next can =>
    cases stored
    exact ⟨can, rfl⟩
  next => cases stored

theorem updatePacks_cases {database : Database} (isOpen : database.isOpen = true)
    (changes : List (String × Decimal.Binary64)) :
    database.updatePacks changes = (database.withAllPacks changes, .ok changes.length) ∨
      ∃ fault, database.updatePacks changes = (database, .error fault) := by
  rw [← foldl_withPacks]
  exact runBatch_cases isOpen (fun _ _ _ stored => (of_setPacks stored).2) changes

/-- A batch of counts that goes through names lines of stock. -/
theorem canSetPacks_of_updatePacks {database : Database} (isOpen : database.isOpen = true)
    {changes : List (String × Decimal.Binary64)} {count : Nat}
    (accepted : (database.updatePacks changes).2 = .ok count) :
    ∀ change ∈ changes, database.CanSetPacks change := by
  refine forall_of_runBatch isOpen ?_ ?_ accepted
  · exact fun database change after stored => (of_setPacks stored).1
  · intro database change after other stored can
    rw [(of_setPacks stored).2] at can
    exact (canSetPacks_withPacks change other).mp can

/-- Pack counts of lines of stock are stored together, whichever of them repeat. -/
theorem updatePacks_eq_ok {database : Database} (isOpen : database.isOpen = true)
    {changes : List (String × Decimal.Binary64)}
    (can : ∀ change ∈ changes, database.CanSetPacks change) :
    database.updatePacks changes = (database.withAllPacks changes, .ok changes.length) := by
  rw [← foldl_withPacks]
  have apart : changes.Pairwise fun _ _ => True :=
    List.pairwise_of_forall fun _ _ => trivial
  refine runBatch_eq_ok isOpen (batch_eq_ok ?_ ?_ apart can)
  · intro database change can
    exact if_pos can
  · intro database change other _ can
    exact (canSetPacks_withPacks change other).mpr can

/-! ### Shipments -/

/-- Whether a new shipment has the id. -/
def CanDeleteShipment (database : Database) (id : String) : Prop :=
  ∃ row, database.shipmentRow? id = some row ∧ row.status = .text ShipmentStatus.new.word

def withoutShipments (database : Database) (ids : List String) : Database :=
  { database with
    shipments := database.shipments.filter fun row => !row.id.isOneOf ids
    lines := database.lines.filter fun row => !row.shipmentId.isOneOf ids }

theorem foldl_withoutShipment (database : Database) (ids : List String) :
    ids.foldl withoutShipment database = database.withoutShipments ids := by
  rw [withoutShipments, ← foldl_filter_ne, ← foldl_filter_ne]
  induction ids generalizing database with
  | nil => rfl
  | cons id ids inductionHypothesis =>
      rw [List.foldl_cons, inductionHypothesis]
      rfl

theorem eq_of_deleteShipment {database after : Database} {id : String}
    (deleted : database.deleteShipment id = .ok after) : after = database.withoutShipment id := by
  unfold deleteShipment at deleted
  split at deleted
  next => cases deleted
  next =>
    split at deleted
    next =>
      cases deleted
      rfl
    next => cases deleted

theorem deleteShipments_cases {database : Database} (isOpen : database.isOpen = true)
    (ids : List String) :
    database.deleteShipments ids = (database.withoutShipments ids, .ok ids.length) ∨
      ∃ fault, database.deleteShipments ids = (database, .error fault) := by
  rw [← foldl_withoutShipment]
  exact runBatch_cases isOpen (fun _ _ _ => eq_of_deleteShipment) ids

/-- Different new shipments are deleted together. -/
theorem deleteShipments_eq_ok {database : Database} (isOpen : database.isOpen = true)
    {ids : List String} (distinct : ids.Nodup)
    (can : ∀ id ∈ ids, database.CanDeleteShipment id) :
    database.deleteShipments ids = (database.withoutShipments ids, .ok ids.length) := by
  rw [← foldl_withoutShipment]
  refine runBatch_eq_ok isOpen (batch_eq_ok ?_ ?_ distinct can)
  · rintro database id ⟨row, found, new⟩
    simp only [deleteShipment, found, new, ↓reduceIte]
  · rintro database id other differs ⟨row, found, new⟩
    have kept : (database.withoutShipment id).shipmentRow? other =
        database.shipmentRow? other :=
      find?_filter_ne ShipmentRow.id differs database.shipments
    exact ⟨row, kept.trans found, new⟩

/-! ### Requisitions -/

/-- Whether a draft has the id. -/
def CanDeleteRequisition (database : Database) (id : String) : Prop :=
  ∃ row, database.requisitionRow? id = some row ∧
    row.status = .text RequisitionStatus.draft.word

def withoutRequisitions (database : Database) (ids : List String) : Database :=
  { database with
    requisitions := database.requisitions.filter fun row => !row.id.isOneOf ids }

theorem foldl_withoutRequisition (database : Database) (ids : List String) :
    ids.foldl withoutRequisition database = database.withoutRequisitions ids := by
  rw [withoutRequisitions, ← foldl_filter_ne]
  induction ids generalizing database with
  | nil => rfl
  | cons id ids inductionHypothesis =>
      rw [List.foldl_cons, inductionHypothesis]
      rfl

theorem eq_of_deleteRequisition {database after : Database} {id : String}
    (deleted : database.deleteRequisition id = .ok after) :
    after = database.withoutRequisition id := by
  unfold deleteRequisition at deleted
  split at deleted
  next => cases deleted
  next =>
    split at deleted
    next =>
      cases deleted
      rfl
    next => cases deleted

theorem deleteRequisitions_cases {database : Database} (isOpen : database.isOpen = true)
    (ids : List String) :
    database.deleteRequisitions ids = (database.withoutRequisitions ids, .ok ids.length) ∨
      ∃ fault, database.deleteRequisitions ids = (database, .error fault) := by
  rw [← foldl_withoutRequisition]
  exact runBatch_cases isOpen (fun _ _ _ => eq_of_deleteRequisition) ids

/-- Different drafts are deleted together. -/
theorem deleteRequisitions_eq_ok {database : Database} (isOpen : database.isOpen = true)
    {ids : List String} (distinct : ids.Nodup)
    (can : ∀ id ∈ ids, database.CanDeleteRequisition id) :
    database.deleteRequisitions ids = (database.withoutRequisitions ids, .ok ids.length) := by
  rw [← foldl_withoutRequisition]
  refine runBatch_eq_ok isOpen (batch_eq_ok ?_ ?_ distinct can)
  · rintro database id ⟨row, found, draft⟩
    simp only [deleteRequisition, found, draft, ↓reduceIte]
  · rintro database id other differs ⟨row, found, draft⟩
    have kept : (database.withoutRequisition id).requisitionRow? other =
        database.requisitionRow? other :=
      find?_filter_ne RequisitionRow.id differs database.requisitions
    exact ⟨row, kept.trans found, draft⟩

end Depot.Database
