import Depot.Database.Basic
import Mathlib.Data.List.Forall2

/-!
Contract: when a row reads as a record.

A row reads as a record when each of its cells reads as the field that the column is for;
the reading of a list of rows is the reading of each of them. Both directions are stated,
so that later modules neither open a reading nor follow its order of cells.

Owns: successful readings of rows and of lists of rows.
Does not own: which rows a database has (`Depot.Proofs.Database.Sound`).
-/

namespace Depot.Database

variable {ε α β γ : Type}

/-! ### Readings one after the other -/

@[simp]
theorem bind_eq_ok {first : Except ε α} {next : α → Except ε β} {result : β} :
    (first >>= next) = .ok result ↔ ∃ value, first = .ok value ∧ next value = .ok result := by
  cases first with
  | error fault => simp [bind, Except.bind]
  | ok value => simp [bind, Except.bind]

@[simp]
theorem pure_eq_ok {value result : α} : (pure value : Except ε α) = .ok result ↔ value = result :=
  Except.ok.injEq value result ▸ Iff.rfl

/-- Rows read as records one by one. -/
theorem readAll_eq_ok (read : α → Except Fault β) (rows : List α) (records : List β) :
    readAll read rows = .ok records ↔
      List.Forall₂ (fun row record => read row = .ok record) rows records := by
  induction rows generalizing records with
  | nil => cases records <;> simp [readAll]
  | cons row rows inductionHypothesis =>
      rw [readAll]
      constructor
      · intro ok
        obtain ⟨record, first, ok⟩ := bind_eq_ok.mp ok
        obtain ⟨rest, others, ok⟩ := bind_eq_ok.mp ok
        cases ok
        exact .cons first ((inductionHypothesis rest).mp others)
      · intro related
        cases related with
        | cons first others =>
            refine bind_eq_ok.mpr ⟨_, first, bind_eq_ok.mpr ⟨_, ?_, rfl⟩⟩
            exact (inductionHypothesis _).mpr others

/-- Dropping rows drops the records that they read as. -/
theorem readAll_filter {read : α → Except Fault β} {rows : List α} {records : List β}
    (reads : readAll read rows = .ok records) (keepRow : α → Bool) (keepRecord : β → Bool)
    (agree : ∀ row ∈ rows, ∀ record, read row = .ok record → keepRow row = keepRecord record) :
    readAll read (rows.filter keepRow) = .ok (records.filter keepRecord) := by
  rw [readAll_eq_ok] at reads ⊢
  induction reads with
  | nil => exact .nil
  | cons first others inductionHypothesis =>
      have rest := inductionHypothesis fun row member =>
        agree row (List.mem_cons_of_mem _ member)
      simp only [List.filter_cons, agree _ List.mem_cons_self _ first]
      split
      · exact .cons first rest
      · exact rest

/-- Changing rows changes the records that they read as. -/
theorem readAll_map {read : α → Except Fault β} {rows : List α} {records : List β}
    (reads : readAll read rows = .ok records) (changeRow : α → α) (changeRecord : β → β)
    (agree : ∀ row ∈ rows, ∀ record, read row = .ok record →
      read (changeRow row) = .ok (changeRecord record)) :
    readAll read (rows.map changeRow) = .ok (records.map changeRecord) := by
  rw [readAll_eq_ok] at reads ⊢
  induction reads with
  | nil => exact .nil
  | cons first others inductionHypothesis =>
      refine .cons (agree _ List.mem_cons_self _ first) (inductionHypothesis ?_)
      intro row member
      exact agree row (List.mem_cons_of_mem _ member)

/-- What rows and the records that they read as have in common is the same list. -/
theorem map_eq_of_readAll {read : α → Except Fault β} {rows : List α} {records : List β}
    (reads : readAll read rows = .ok records) (ofRow : α → γ) (ofRecord : β → γ)
    (agree : ∀ row ∈ rows, ∀ record, read row = .ok record → ofRow row = ofRecord record) :
    rows.map ofRow = records.map ofRecord := by
  rw [readAll_eq_ok] at reads
  induction reads with
  | nil => rfl
  | cons first others inductionHypothesis =>
      rw [List.map_cons, List.map_cons, agree _ List.mem_cons_self _ first,
        inductionHypothesis fun row member => agree row (List.mem_cons_of_mem _ member)]

/-- Every record is what one of the rows reads as. -/
theorem mem_of_readAll {read : α → Except Fault β} {rows : List α} {records : List β}
    (reads : readAll read rows = .ok records) {record : β} (member : record ∈ records) :
    ∃ row ∈ rows, read row = .ok record := by
  rw [readAll_eq_ok] at reads
  induction reads with
  | nil => cases member
  | cons first others inductionHypothesis =>
      rcases List.mem_cons.mp member with rfl | later
      · exact ⟨_, List.mem_cons_self, first⟩
      · obtain ⟨row, inside, reads⟩ := inductionHypothesis later
        exact ⟨row, List.mem_cons_of_mem _ inside, reads⟩

/-- Rows that are read together can be read one by one. -/
theorem reads_of_readAll {read : α → Except Fault β} {rows : List α} {records : List β}
    (reads : readAll read rows = .ok records) : ∀ row ∈ rows, ∃ record, read row = .ok record := by
  rw [readAll_eq_ok] at reads
  induction reads with
  | nil => exact List.forall_mem_nil _
  | cons first others inductionHypothesis =>
      exact List.forall_mem_cons.mpr ⟨⟨_, first⟩, inductionHypothesis⟩

theorem readFirst_eq_ok_some (read : α → Except Fault β) (row? : Option α) (record : β) :
    readFirst read row? = .ok (some record) ↔ ∃ row, row? = some row ∧ read row = .ok record := by
  cases row? with
  | none => simp [readFirst]
  | some row => cases reads : read row <;> simp [readFirst, Except.map, reads]

/-! ### Cells and words -/

namespace Cell

@[simp]
theorem readText_text (name : String) : (Cell.text name).readText = .ok name := rfl

theorem readDouble?_eq_ok_some (cell : Cell) (value : Decimal.Binary64) :
    cell.readDouble? = .ok (some value) ↔ cell = .real value := by
  cases cell <;> simp [readDouble?]

end Cell

theorem required_eq_ok (id column : String) (value? : Option α) (value : α) :
    LineRow.required id column value? = .ok value ↔ value? = some value := by
  cases value? <;> simp [LineRow.required]

theorem readWord_eq_ok (read? : String → Option α) (noun raw : String) (value : α) :
    readWord read? noun raw = .ok value ↔ read? raw = some value := by
  unfold readWord
  split
  next found => simp [found]
  next missing => simp [missing]

theorem readKind_eq_ok (id raw : String) (kind : LineKind) :
    LineRow.readKind id raw = .ok kind ↔ LineKind.read? raw = some kind := by
  unfold LineRow.readKind
  split
  next found => simp [found]
  next missing => simp [missing]

@[simp]
theorem read?_word_direction (direction : Direction) :
    Direction.read? direction.word = some direction := by
  cases direction <;> rfl

@[simp]
theorem read?_word_shipmentStatus (status : ShipmentStatus) :
    ShipmentStatus.read? status.word = some status := by
  cases status <;> rfl

@[simp]
theorem read?_word_requisitionStatus (status : RequisitionStatus) :
    RequisitionStatus.read? status.word = some status := by
  cases status <;> rfl

@[simp]
theorem read?_word_lineKind (kind : LineKind) : LineKind.read? kind.word = some kind := by
  cases kind <;> rfl

/-! ### Rows -/

/-- What a row of the table of shipments reads as. -/
theorem ShipmentRow.read_eq_ok (row : ShipmentRow) (shipment : Shipment) :
    row.read = .ok shipment ↔
      (∃ direction, row.direction.readText = .ok direction ∧
        Direction.read? direction = some shipment.direction) ∧
      (∃ status, row.status.readText = .ok status ∧
        ShipmentStatus.read? status = some shipment.status) ∧
      row.id.readText = .ok shipment.id ∧
      row.number.readNumber = .ok shipment.number ∧
      row.party.readText = .ok shipment.party ∧
      row.onHold.readBool = .ok shipment.onHold ∧
      row.createdAt.readInstant = .ok shipment.createdAt := by
  obtain ⟨id, number, direction, status, party, onHold, createdAt⟩ := shipment
  simp only [ShipmentRow.read, bind_eq_ok, pure_eq_ok, readWord_eq_ok, Shipment.mk.injEq]
  constructor
  · rintro ⟨_, readDirection, _, readStatus, _, readId, _, readNumber, _, isDirection, _,
      isStatus, _, readParty, _, readHold, _, readCreated, rfl, rfl, rfl, rfl, rfl, rfl, rfl⟩
    exact ⟨⟨_, readDirection, isDirection⟩, ⟨_, readStatus, isStatus⟩, readId, readNumber,
      readParty, readHold, readCreated⟩
  · rintro ⟨⟨_, readDirection, isDirection⟩, ⟨_, readStatus, isStatus⟩, readId, readNumber,
      readParty, readHold, readCreated⟩
    exact ⟨_, readDirection, _, readStatus, _, readId, _, readNumber, _, isDirection, _,
      isStatus, _, readParty, _, readHold, _, readCreated, rfl, rfl, rfl, rfl, rfl, rfl, rfl⟩

/-- What a row of the table of requisitions reads as. -/
theorem RequisitionRow.read_eq_ok (row : RequisitionRow) (requisition : Requisition) :
    row.read = .ok requisition ↔
      (∃ status, row.status.readText = .ok status ∧
        RequisitionStatus.read? status = some requisition.status) ∧
      row.id.readText = .ok requisition.id ∧
      row.number.readNumber = .ok requisition.number ∧
      row.party.readText = .ok requisition.party ∧
      row.createdAt.readInstant = .ok requisition.createdAt := by
  obtain ⟨id, number, status, party, createdAt⟩ := requisition
  simp only [RequisitionRow.read, bind_eq_ok, pure_eq_ok, readWord_eq_ok, Requisition.mk.injEq]
  constructor
  · rintro ⟨_, readStatus, _, readId, _, readNumber, _, isStatus, _, readParty, _, readCreated,
      rfl, rfl, rfl, rfl, rfl⟩
    exact ⟨⟨_, readStatus, isStatus⟩, readId, readNumber, readParty, readCreated⟩
  · rintro ⟨⟨_, readStatus, isStatus⟩, readId, readNumber, readParty, readCreated⟩
    exact ⟨_, readStatus, _, readId, _, readNumber, _, isStatus, _, readParty, _, readCreated,
      rfl, rfl, rfl, rfl, rfl⟩

namespace LineRow

/-- What the columns of a quantity of stock read as. -/
theorem readStock_eq_ok (row : LineRow) (id : String) (stock : Stock) (price : Decimal.Binary64) :
    row.readStock id = .ok (stock, price) ↔
      row.batch.readText? = .ok stock.batch ∧ row.expiry.readDate? = .ok stock.expiry ∧
      row.readPackSize id = .ok stock.packSize ∧ row.packs = .real stock.packs ∧
      row.price = .real price := by
  obtain ⟨batch, expiry, packSize, packs⟩ := stock
  simp only [readStock, bind_eq_ok, pure_eq_ok, required_eq_ok, Prod.mk.injEq, Stock.mk.injEq,
    ← Cell.readDouble?_eq_ok_some]
  constructor
  · rintro ⟨_, readBatch, _, readExpiry, _, readSize, _, readPacks, _, rfl, _, readPrice, _, rfl,
      ⟨rfl, rfl, rfl, rfl⟩, rfl⟩
    exact ⟨readBatch, readExpiry, readSize, readPacks, readPrice⟩
  · rintro ⟨readBatch, readExpiry, readSize, readPacks, readPrice⟩
    exact ⟨_, readBatch, _, readExpiry, _, readSize, _, readPacks, _, rfl, _, readPrice, _, rfl,
      ⟨rfl, rfl, rfl, rfl⟩, rfl⟩

/-- What the columns of a line's content read as. -/
theorem readContent_eq_ok (row : LineRow) (id : String) (kind : LineKind)
    (content : LineContent) :
    row.readContent id kind = .ok content ↔
      content.kind = kind ∧
        match content with
        | .stockIn stock price => row.readStock id = .ok (stock, price)
        | .stockOut stockLineId stock price =>
            row.stockLineId.readText? = .ok (some stockLineId) ∧
              row.readStock id = .ok (stock, price)
        | .service total note =>
            row.total = .real total ∧ row.note.readText? = .ok note := by
  cases kind with
  | stockIn =>
      simp only [readContent, bind_eq_ok, pure_eq_ok, Prod.exists]
      constructor
      · rintro ⟨stock, price, reads, rfl⟩
        exact ⟨rfl, reads⟩
      · rintro ⟨kind, reads⟩
        cases content <;> cases kind
        exact ⟨_, _, reads, rfl⟩
  | stockOut =>
      simp only [readContent, bind_eq_ok, pure_eq_ok, required_eq_ok, Prod.exists]
      constructor
      · rintro ⟨_, readId, stockLineId, rfl, stock, price, reads, rfl⟩
        exact ⟨rfl, readId, reads⟩
      · rintro ⟨kind, reads⟩
        cases content <;> cases kind
        exact ⟨_, reads.1, _, rfl, _, _, reads.2, rfl⟩
  | service =>
      simp only [readContent, bind_eq_ok, pure_eq_ok, required_eq_ok]
      constructor
      · rintro ⟨_, readTotal, total, rfl, note, readNote, rfl⟩
        exact ⟨rfl, (row.total.readDouble?_eq_ok_some total).mp readTotal, readNote⟩
      · rintro ⟨kind, reads⟩
        cases content <;> cases kind
        exact ⟨_, (row.total.readDouble?_eq_ok_some _).mpr reads.1, _, rfl, _, reads.2, rfl⟩

/-- What a row of the table of lines reads as. -/
theorem read_eq_ok (row : LineRow) (line : Line) :
    row.read = .ok line ↔
      row.id.readText = .ok line.id ∧
      (∃ raw, row.kind.readText = .ok raw ∧ LineKind.read? raw = some line.kind) ∧
      row.readContent line.id line.kind = .ok line.content ∧
      row.shipmentId.readText = .ok line.shipmentId ∧
      row.itemId.readText = .ok line.item.id ∧
      row.itemCode.readText = .ok line.item.code ∧
      row.itemName.readText = .ok line.item.name := by
  obtain ⟨id, shipmentId, ⟨itemId, itemCode, itemName⟩, content⟩ := line
  simp only [read, bind_eq_ok, pure_eq_ok, readKind_eq_ok, Line.mk.injEq, Item.mk.injEq,
    Line.kind]
  constructor
  · rintro ⟨_, readId, raw, readKind, kind, isKind, _, readContent, _, readShipment, _, readItem,
      _, readCode, _, readName, rfl, rfl, ⟨rfl, rfl, rfl⟩, rfl⟩
    obtain ⟨rfl, -⟩ := (readContent_eq_ok ..).mp readContent
    exact ⟨readId, ⟨raw, readKind, isKind⟩, readContent, readShipment, readItem, readCode,
      readName⟩
  · rintro ⟨readId, ⟨raw, readKind, isKind⟩, readContent, readShipment, readItem, readCode,
      readName⟩
    exact ⟨_, readId, raw, readKind, _, isKind, _, readContent, _, readShipment, _, readItem, _,
      readCode, _, readName, rfl, rfl, ⟨rfl, rfl, rfl⟩, rfl⟩

/-- A line of stock with another number of packs reads as the line with it. -/
theorem read_withPacks {row : LineRow} {line : Line} (reads : row.read = .ok line)
    (packs : Decimal.Binary64) (stock : line.isService = false) :
    LineRow.read { row with packs := .real packs } = .ok (line.withPacks packs) := by
  obtain ⟨id, shipmentId, item, content⟩ := line
  rw [read_eq_ok] at reads ⊢
  obtain ⟨readId, readKind, readContent, readRest⟩ := reads
  cases content with
  | service => simp [Line.isService, Line.kind, LineContent.kind] at stock
  | stockIn quantity price =>
      refine ⟨readId, readKind, ?_, readRest⟩
      obtain ⟨-, readStock⟩ := (readContent_eq_ok ..).mp readContent
      obtain ⟨batch, expiry, size, -, priced⟩ := (readStock_eq_ok ..).mp readStock
      refine (readContent_eq_ok ..).mpr ⟨rfl, ?_⟩
      exact (readStock_eq_ok ..).mpr ⟨batch, expiry, size, rfl, priced⟩
  | stockOut stockLineId quantity price =>
      refine ⟨readId, readKind, ?_, readRest⟩
      obtain ⟨-, readLine, readStock⟩ := (readContent_eq_ok ..).mp readContent
      obtain ⟨batch, expiry, size, -, priced⟩ := (readStock_eq_ok ..).mp readStock
      refine (readContent_eq_ok ..).mpr ⟨rfl, readLine, ?_⟩
      exact (readStock_eq_ok ..).mpr ⟨batch, expiry, size, rfl, priced⟩

end LineRow

end Depot.Database
