import Depot.Proofs.Calendar.Columns
import Depot.Proofs.Database.Descent

/-!
Contract: records read back from the rows that they were written to.

Shipments and requisitions are read exactly as they were written. A line comes back with its
numbers as a column keeps them, which is the same line by value; NaN, which a column cannot
keep, is left out.

Owns: the readings of written rows.
Does not own: which rows a table holds (`Depot.Proofs.Database.History`).
-/

namespace Depot

open Database Decimal

/-! ### Cells -/

namespace Database.Cell

@[simp]
theorem readInstant_ofInstant (moment : Calendar.Instant) :
    (ofInstant moment).readInstant = .ok moment := by
  have read : Calendar.readColumnInstant? (String.ofList moment.columnText).toList =
      some moment := by
    rw [String.toList_ofList]
    exact Calendar.readColumnInstant?_columnText moment
  simp only [readInstant, ofInstant, readText_text, bind, Except.bind, read]

@[simp]
theorem readDate?_ofDate? (date? : Option Calendar.Date) :
    (ofDate? date?).readDate? = .ok date? := by
  cases date? with
  | none => rfl
  | some date =>
      have read : Calendar.readColumnDate? (String.ofList date.text).toList = some date := by
        rw [String.toList_ofList]
        exact Calendar.readColumnDate?_text date
      simp only [readDate?, ofDate?, Option.elim_some, readText?, bind, Except.bind, read]

@[simp]
theorem readText?_ofText? (text? : Option String) : (ofText? text?).readText? = .ok text? := by
  cases text? <;> rfl

@[simp]
theorem readBool_ofBool (value : Bool) : (ofBool value).readBool = .ok value := by
  cases value <;> rfl

theorem stored_ofText? (text? : Option String) : (ofText? text?).stored .text = ofText? text? := by
  cases text? <;> rfl

theorem stored_ofDate? (date? : Option Calendar.Date) :
    (ofDate? date?).stored .text = ofDate? date? := by
  cases date? <;> rfl

end Database.Cell

namespace Database

/-! ### Shipments and requisitions -/

theorem ShipmentRow.read_ofShipment (shipment : Shipment) :
    (ShipmentRow.ofShipment shipment).read = .ok shipment := by
  refine (read_eq_ok _ shipment).mpr ⟨⟨_, rfl, read?_word_direction _⟩,
    ⟨_, rfl, read?_word_shipmentStatus _⟩, rfl, ?_, rfl, Cell.readBool_ofBool _,
    Cell.readInstant_ofInstant _⟩
  exact congrArg Except.ok (Int64.ofInt_toInt shipment.number)

theorem RequisitionRow.read_ofRequisition (requisition : Requisition) :
    (RequisitionRow.ofRequisition requisition).read = .ok requisition := by
  refine (read_eq_ok _ requisition).mpr ⟨⟨_, rfl, read?_word_requisitionStatus _⟩, rfl, ?_, rfl,
    Cell.readInstant_ofInstant _⟩
  exact congrArg Except.ok (Int64.ofInt_toInt requisition.number)

end Database

/-! ### Lines -/

/-- The content with its numbers as columns keep them. -/
def LineContent.kept : LineContent → LineContent
  | .stockIn stock price => .stockIn { stock with packs := stock.packs.kept } price.kept
  | .stockOut stockLineId stock price =>
      .stockOut stockLineId { stock with packs := stock.packs.kept } price.kept
  | .service total note => .service total.kept note

/-- The line with its numbers as columns keep them. -/
def Line.kept (line : Line) : Line := { line with content := line.content.kept }

/-- The line with the last of the counts that are given for it. -/
def Line.recount (line : Line) (changes : List (String × Binary64)) : Line :=
  ((lastCount? changes line.id).map line.withPacks).getD line

theorem Decimal.Binary64.kept_equals {number : Binary64} (isNumber : number.isNaN = false) :
    number.kept.equals number = true := by
  rw [equals_comm]
  exact equals_kept isNumber

/-- A line is kept by value. -/
theorem Line.kept_same {line : Line} (numeric : line.content.IsNumeric) :
    line.kept.same line = true := by
  obtain ⟨id, shipmentId, item, content⟩ := line
  cases content with
  | stockIn stock price =>
      simp [same, kept, LineContent.kept, LineContent.same, Stock.same,
        Binary64.kept_equals numeric.1, Binary64.kept_equals numeric.2]
  | stockOut stockLineId stock price =>
      simp [same, kept, LineContent.kept, LineContent.same, Stock.same,
        Binary64.kept_equals numeric.1, Binary64.kept_equals numeric.2]
  | service total note =>
      have isNumber : total.isNaN = false := numeric
      have equal := Binary64.kept_equals isNumber
      simp [same, kept, LineContent.kept, LineContent.same, equal]

theorem LineContent.IsNumeric.withPacks {content : LineContent} (numeric : content.IsNumeric)
    {packs : Binary64} (isNumber : packs.isNaN = false) :
    (content.withPacks packs).IsNumeric := by
  cases content with
  | stockIn stock price => exact ⟨isNumber, numeric.2⟩
  | stockOut stockLineId stock price => exact ⟨isNumber, numeric.2⟩
  | service total note => exact numeric

namespace Database.LineRow

theorem readPackSize_integer {row : LineRow} {size : UInt32}
    (column : row.packSize = .integer size.toNat) (id : String) :
    row.readPackSize id = .ok size := by
  have read : row.packSize.readInteger? = .ok (some (size.toNat : Int)) := by
    rw [column]
    rfl
  have inRange : (0 : Int) ≤ size.toNat ∧ (size.toNat : Int) < Int.pow 2 32 := by
    have power : Int.pow 2 32 = ((2 ^ 32 : Nat) : Int) := rfl
    rw [power]
    exact ⟨Int.natCast_nonneg _, Int.ofNat_lt.mpr size.toNat_lt⟩
  rw [readPackSize]
  refine bind_eq_ok.mpr ⟨_, read, bind_eq_ok.mpr ⟨_, rfl, ?_⟩⟩
  rw [if_pos inRange, Int.toNat_natCast, UInt32.ofNat_toNat]
  rfl

/-- The columns of a quantity of stock, as they are stored, read as the quantity. -/
theorem readStock_written {row : LineRow} {stock : Stock} {price : Binary64}
    (columns : row = { row with
      batch := .ofText? stock.batch
      expiry := .ofDate? stock.expiry
      packSize := .integer stock.packSize.toNat
      packs := .real stock.packs.kept
      price := .real price.kept }) (id : String) :
    row.readStock id = .ok ({ stock with packs := stock.packs.kept }, price.kept) := by
  rw [columns]
  exact (readStock_eq_ok ..).mpr ⟨Cell.readText?_ofText? _, Cell.readDate?_ofDate? _,
    readPackSize_integer rfl id, rfl, rfl⟩

/-- A line is read as it was written, its numbers as columns keep them. -/
theorem read_written {line : Line} (numeric : line.content.IsNumeric) :
    (written line).read = .ok line.kept := by
  obtain ⟨id, shipmentId, ⟨itemId, itemCode, itemName⟩, content⟩ := line
  have kind : (written ⟨id, shipmentId, ⟨itemId, itemCode, itemName⟩, content⟩).kind.readText =
      .ok content.kind.word := by
    rw [kind_written]
    rfl
  refine (read_eq_ok _ _).mpr ?_
  cases content with
  | stockIn stock price =>
      refine ⟨rfl, ⟨_, kind, read?_word_lineKind _⟩, ?_, rfl, rfl, rfl, rfl⟩
      refine (readContent_eq_ok ..).mpr ⟨rfl, readStock_written ?_ id⟩
      simp only [written, ofLine, stored, withStock, Cell.stored_ofText?, Cell.stored_ofDate?,
        Cell.stored_ofDouble numeric.1, Cell.stored_ofDouble numeric.2]
      rfl
  | stockOut stockLineId stock price =>
      refine ⟨rfl, ⟨_, kind, read?_word_lineKind _⟩, ?_, rfl, rfl, rfl, rfl⟩
      refine (readContent_eq_ok ..).mpr ⟨rfl, rfl, readStock_written ?_ id⟩
      simp only [written, ofLine, stored, withStock, Cell.stored_ofText?, Cell.stored_ofDate?,
        Cell.stored_ofDouble numeric.1, Cell.stored_ofDouble numeric.2]
      rfl
  | service total note =>
      refine ⟨rfl, ⟨_, kind, read?_word_lineKind _⟩, ?_, rfl, rfl, rfl, rfl⟩
      refine (readContent_eq_ok ..).mpr ⟨rfl, Cell.stored_ofDouble numeric, ?_⟩
      show ((Cell.ofText? note).stored .text).readText? = .ok note
      rw [Cell.stored_ofText?, Cell.readText?_ofText?]

theorem stored_ofDouble_kept (number : Binary64) :
    (Cell.ofDouble number.kept).stored .real = (Cell.ofDouble number).stored .real := by
  unfold Binary64.kept
  split
  next zero =>
    have isNumber : number.isNaN = false := by
      have none : number.magnitude = 0 := of_decide_eq_true zero
      simp [Binary64.isNaN, none]
    rw [Cell.stored_ofDouble isNumber, Binary64.kept, if_pos zero]
    rfl
  next => rfl

theorem written_withPacks_kept (line : Line) (packs : Binary64) :
    written (line.withPacks packs.kept) = written (line.withPacks packs) := by
  have same := stored_ofDouble_kept packs
  obtain ⟨id, shipmentId, item, content⟩ := line
  cases content with
  | stockIn stock price =>
      simp only [written, ofLine, stored, Line.withPacks, LineContent.withPacks, withStock, same]
      rfl
  | stockOut stockLineId stock price =>
      simp only [written, ofLine, stored, Line.withPacks, LineContent.withPacks, withStock, same]
      rfl
  | service total note => rfl

theorem repack_written (line : Line) (change : String × Binary64) :
    (written line).repack change = written (line.repack change) := by
  have mine : ((written line).id = .text change.1 && isStockRow (written line)) =
      (line.id = change.1 && !line.isService) := by
    rw [id_written, isStockRow_of_kind (kind_written line)]
    simp [Line.isService]
  unfold LineRow.repack Line.repack
  rw [mine]
  split
  next both =>
    have stock : line.isService = false := by simpa using (Bool.and_eq_true_iff.mp both).2
    rw [written_withPacks_kept]
    obtain ⟨id, shipmentId, item, content⟩ := line
    cases content with
    | stockIn stock price => rfl
    | stockOut stockLineId stock price => rfl
    | service total note => cases stock
  next => rfl

/-- A written line that is given counts is the line with the last one, written. -/
theorem foldl_repack_written (line : Line) (changes : List (String × Binary64)) :
    changes.foldl LineRow.repack (written line) = written (line.recount changes) := by
  have folds : ∀ line : Line, changes.foldl LineRow.repack (written line) =
      written (changes.foldl Line.repack line) := by
    induction changes with
    | nil => exact fun line => rfl
    | cons change changes inductionHypothesis =>
        intro line
        rw [List.foldl_cons, repack_written, inductionHypothesis, List.foldl_cons]
  rw [folds, Line.recount]
  cases service : line.isService with
  | true =>
      rw [Line.foldl_repack_service service]
      obtain ⟨id, shipmentId, item, content⟩ := line
      cases content with
      | stockIn stock price => cases service
      | stockOut stockLineId stock price => cases service
      | service total note => cases lastCount? changes id <;> rfl
  | false =>
      rw [Line.foldl_repack service]
      cases lastCount? changes line.id with
      | none => rfl
      | some packs => exact written_withPacks_kept line packs

end Database.LineRow

end Depot
