import Depot.Proofs.Database.Records
import Mathlib.Data.List.Induction

/-!
Contract: the lines of a shipment after pack counts were stored.

Of the counts that are given for one line the last one stays. A column keeps a count up to
the sign of a zero, so that lines which are read again equal the lines with the counts that
were given, numbers compared by value.

Owns: the lines after a batch of pack counts.
Does not own: which batches go through (`Depot.Proofs.Service.Requests`).
-/

namespace Depot

open Database Decimal

/-! ### Counts -/

namespace Decimal.Binary64

/-- A number as a column of doubles keeps it. -/
def kept (number : Binary64) : Binary64 :=
  if number.isZero then .zero else number

theorem equals_self {number : Binary64} (isNumber : number.isNaN = false) :
    number.equals number = true := by
  simp [equals, isNumber]

theorem equals_comm (left right : Binary64) : left.equals right = right.equals left := by
  simp only [equals, Bool.and_comm, eq_comm]

theorem equals_kept {number : Binary64} (isNumber : number.isNaN = false) :
    number.equals number.kept = true := by
  unfold kept
  split
  next none =>
    have zero : Binary64.zero.isNaN = false ∧ Binary64.zero.isZero = true := by decide
    simp [equals, isNumber, none, zero]
  next => exact equals_self isNumber

theorem isNaN_of_isFinite {number : Binary64} (finite : number.isFinite = true) :
    number.isNaN = false := by
  have below : number.magnitude < infinityMagnitude := of_decide_eq_true finite
  exact decide_eq_false (Nat.lt_asymm below)

end Decimal.Binary64

theorem Database.Cell.stored_ofDouble {number : Binary64} (isNumber : number.isNaN = false) :
    (Cell.ofDouble number).stored .real = .real number.kept := by
  simp [ofDouble, stored, isNumber, realNumber, Binary64.kept]

/-- The last count that is given for an id. -/
def lastCount? (changes : List (String × Binary64)) (id : String) : Option Binary64 :=
  (changes.reverse.find? fun change => change.1 = id).map Prod.snd

theorem lastCount?_append_singleton (changes : List (String × Binary64))
    (change : String × Binary64) (id : String) :
    lastCount? (changes ++ [change]) id =
      if change.1 = id then some change.2 else lastCount? changes id := by
  rw [lastCount?, List.reverse_append, List.reverse_singleton, List.singleton_append,
    List.find?_cons]
  by_cases same : change.1 = id
  · simp [same]
  · simp [same, lastCount?]

theorem mem_of_lastCount? {changes : List (String × Binary64)} {id : String} {packs : Binary64}
    (last : lastCount? changes id = some packs) : (id, packs) ∈ changes := by
  obtain ⟨change, found, rfl⟩ := Option.map_eq_some_iff.mp last
  have named : change.1 = id := by simpa using List.find?_some found
  exact named ▸ List.mem_reverse.mp (List.mem_of_find?_eq_some found)

/-! ### Lines -/

namespace Line

theorem withPacks_withPacks (line : Line) (first second : Binary64) :
    (line.withPacks first).withPacks second = line.withPacks second := by
  obtain ⟨id, shipmentId, item, content⟩ := line
  cases content <;> rfl

theorem isService_withPacks (line : Line) (packs : Binary64) :
    (line.withPacks packs).isService = line.isService := by
  obtain ⟨id, shipmentId, item, content⟩ := line
  cases content <;> rfl

/-- The line with a count as the table keeps it, if it is the line that the count is for. -/
def repack (line : Line) (change : String × Binary64) : Line :=
  if line.id = change.1 && !line.isService then line.withPacks change.2.kept else line

/-- Of several counts for a line of stock the last one stays. -/
theorem foldl_repack {line : Line} (stock : line.isService = false)
    (changes : List (String × Binary64)) :
    changes.foldl repack line =
      ((lastCount? changes line.id).map fun packs => line.withPacks packs.kept).getD line := by
  -- From the last change backwards: it decides, unless it is for another line.
  induction changes using List.reverseRecOn with
  | nil => rfl
  | append_singleton changes change inductionHypothesis =>
      rw [List.foldl_append, List.foldl_cons, List.foldl_nil, inductionHypothesis,
        lastCount?_append_singleton]
      by_cases same : change.1 = line.id
      · cases lastCount? changes line.id with
        | none => simp [repack, same, stock]
        | some packs =>
            have sameId : (line.withPacks packs.kept).id = change.1 := same.symm
            simp [repack, sameId, same, isService_withPacks, stock, withPacks_withPacks]
      · cases lastCount? changes line.id with
        | none => simp [repack, same, Ne.symm same]
        | some packs =>
            have otherId : (line.withPacks packs.kept).id ≠ change.1 := Ne.symm same
            simp [repack, otherId, same]

theorem foldl_repack_service {line : Line} (service : line.isService = true)
    (changes : List (String × Binary64)) : changes.foldl repack line = line := by
  induction changes with
  | nil => rfl
  | cons change changes inductionHypothesis =>
      have stays : line.repack change = line := by simp [repack, service]
      rw [List.foldl_cons, stays, inductionHypothesis]

/-- Counts change nothing else of a line. -/
theorem foldl_repack_eq (line : Line) (changes : List (String × Binary64)) :
    (changes.foldl repack line).id = line.id ∧
      (changes.foldl repack line).shipmentId = line.shipmentId ∧
      (changes.foldl repack line).kind = line.kind := by
  have once : ∀ (line : Line) (change : String × Binary64), (line.repack change).id = line.id ∧
      (line.repack change).shipmentId = line.shipmentId ∧
      (line.repack change).kind = line.kind := by
    rintro ⟨id, shipmentId, item, content⟩ change
    unfold repack
    split
    next => cases content <;> exact ⟨rfl, rfl, rfl⟩
    next => exact ⟨rfl, rfl, rfl⟩
  induction changes generalizing line with
  | nil => exact ⟨rfl, rfl, rfl⟩
  | cons change changes inductionHypothesis =>
      obtain ⟨sameId, sameShipment, sameKind⟩ := inductionHypothesis (line.repack change)
      obtain ⟨onceId, onceShipment, onceKind⟩ := once line change
      exact ⟨sameId.trans onceId, sameShipment.trans onceShipment, sameKind.trans onceKind⟩

/-- Counts are kept by value. -/
theorem same_withPacks_kept {line : Line} (same : line.same line = true) {packs : Binary64}
    (isNumber : packs.isNaN = false) :
    (line.withPacks packs).same (line.withPacks packs.kept) = true := by
  obtain ⟨id, shipmentId, item, content⟩ := line
  have equal := Binary64.equals_kept isNumber
  cases content <;>
    simp_all [Line.same, withPacks, LineContent.withPacks, LineContent.same, Stock.same]

end Line

/-! ### Rows -/

namespace Database

namespace LineRow

/-- A row that is given a count reads as its line with this count. -/
theorem read_repack {row : LineRow} (sound : row.Sound) {line : Line}
    (reads : row.read = .ok line) {change : String × Binary64}
    (isNumber : change.2.isNaN = false) :
    (row.repack change).read = .ok (line.repack change) := by
  obtain ⟨named, -, written⟩ := sound.of_read reads
  have mine : (row.id = .text change.1 && isStockRow row) =
      (line.id = change.1 && !line.isService) := by
    rw [named, isStockRow_of_kind written]
    simp [Line.isService]
  unfold LineRow.repack Line.repack
  rw [mine]
  split
  next both =>
    have stock : line.isService = false := by
      simpa using (Bool.and_eq_true_iff.mp both).2
    rw [Cell.stored_ofDouble isNumber]
    exact read_withPacks reads change.2.kept stock
  next => exact reads

theorem read_foldl_repack {row : LineRow} (sound : row.Sound) {line : Line}
    (reads : row.read = .ok line) {changes : List (String × Binary64)}
    (numbers : ∀ change ∈ changes, change.2.isNaN = false) :
    (changes.foldl LineRow.repack row).read = .ok (changes.foldl Line.repack line) := by
  induction changes generalizing row line with
  | nil => exact reads
  | cons change changes inductionHypothesis =>
      have first := read_repack sound reads (numbers change List.mem_cons_self)
      exact inductionHypothesis (sound.repack change) first fun other member =>
        numbers other (List.mem_cons_of_mem _ member)

/-- Of several counts for a row of stock the last one stays. -/
theorem foldl_repack {row : LineRow} {id : String} (named : row.id = .text id)
    (stock : isStockRow row = true) (changes : List (String × Binary64)) :
    changes.foldl LineRow.repack row = ((lastCount? changes id).map fun packs =>
      { row with packs := (Cell.ofDouble packs).stored .real }).getD row := by
  induction changes using List.reverseRecOn with
  | nil => rfl
  | append_singleton changes change inductionHypothesis =>
      have sameName := (id_foldl_repack row changes).trans named
      have sameKind : isStockRow (changes.foldl LineRow.repack row) = true := by
        rw [inductionHypothesis]
        cases lastCount? changes id <;> exact stock
      rw [List.foldl_append, List.foldl_cons, List.foldl_nil, lastCount?_append_singleton,
        LineRow.repack, sameName, sameKind, Bool.and_true, inductionHypothesis]
      by_cases same : change.1 = id
      · cases lastCount? changes id <;> simp [same, named]
      · simp [same, Ne.symm same]

/-- Counts leave a row as it is, unless the last one for it differs from the one that it has. -/
theorem foldl_repack_cases {row : LineRow} {id : String} (named : row.id = .text id)
    (changes : List (String × Binary64)) :
    changes.foldl LineRow.repack row = row ∨ ∃ packs, lastCount? changes id = some packs ∧
      row.packs ≠ (Cell.ofDouble packs).stored .real := by
  cases stock : isStockRow row with
  | false =>
      have stays : ∀ change : String × Binary64, row.repack change = row := by
        intro change
        rw [LineRow.repack, stock, Bool.and_false]
        rfl
      refine .inl ?_
      induction changes with
      | nil => rfl
      | cons change changes inductionHypothesis =>
          rw [List.foldl_cons, stays, inductionHypothesis]
  | true =>
      rw [foldl_repack named stock]
      cases lastCount? changes id with
      | none => exact .inl rfl
      | some packs =>
          by_cases same : row.packs = (Cell.ofDouble packs).stored .real
          · exact .inl (by rw [Option.map_some, Option.getD_some, ← same])
          · exact .inr ⟨packs, rfl, same⟩

/-- A line that is read from a sound row has no NaN. -/
theorem Sound.same_self {row : LineRow} (sound : row.Sound) {line : Line}
    (reads : row.read = .ok line) : line.same line = true := by
  obtain ⟨id, shipmentId, item, content⟩ := line
  obtain ⟨-, -, readContent, -⟩ := (read_eq_ok row _).mp reads
  obtain ⟨-, columns⟩ := (readContent_eq_ok ..).mp readContent
  have stockSame : ∀ (stock : Stock) (price : Binary64), row.readStock id = .ok (stock, price) →
      stock.same stock = true ∧ price.equals price = true := by
    intro stock price readStock
    obtain ⟨-, -, -, packs, priced⟩ := (readStock_eq_ok ..).mp readStock
    have equal := Binary64.equals_self (sound.packs _ packs)
    exact ⟨by simp [Stock.same, equal], Binary64.equals_self (sound.price _ priced)⟩
  cases content with
  | stockIn stock price =>
      obtain ⟨stockEqual, priceEqual⟩ := stockSame stock price columns
      simp [Line.same, LineContent.same, stockEqual, priceEqual]
  | stockOut stockLineId stock price =>
      obtain ⟨stockEqual, priceEqual⟩ := stockSame stock price columns.2
      simp [Line.same, LineContent.same, stockEqual, priceEqual]
  | service total note =>
      have totalEqual := Binary64.equals_self (sound.total _ columns.1)
      simp [Line.same, LineContent.same, totalEqual]

end LineRow

namespace Sound

variable {database : Database}

theorem same_self_of_mem (sound : database.Sound) {shipmentId : String} {lines : List Line}
    (reads : database.linesOf shipmentId = .ok lines) {line : Line} (member : line ∈ lines) :
    line.same line = true := by
  obtain ⟨found, -⟩ := sound.lineById_of_mem reads member
  obtain ⟨row, inside, -, isLine⟩ := (sound.lineById_eq_ok ..).mp found
  exact (sound.lines row inside).same_self isLine

/-- The lines of a shipment after counts were stored. -/
theorem linesOf_withAllPacks (sound : database.Sound) {shipmentId : String} {lines : List Line}
    (reads : database.linesOf shipmentId = .ok lines) {changes : List (String × Binary64)}
    (numbers : ∀ change ∈ changes, change.2.isNaN = false) :
    (database.withAllPacks changes).linesOf shipmentId =
      .ok (lines.map fun line => changes.foldl Line.repack line) := by
  rw [linesOf, listing_eq_ok database sound.isOpen] at reads
  rw [linesOf, listing_eq_ok (database.withAllPacks changes) sound.isOpen, Database.withAllPacks,
    List.filter_map]
  have owned : ((fun row : LineRow => decide (row.shipmentId = .text shipmentId)) ∘
      fun row => changes.foldl LineRow.repack row) =
        fun row => decide (row.shipmentId = .text shipmentId) := by
    funext row
    rw [Function.comp_apply, LineRow.shipmentId_foldl_repack]
  rw [owned]
  refine readAll_map reads _ _ ?_
  intro row member line isLine
  exact LineRow.read_foldl_repack (sound.lines row (List.mem_filter.mp member).1) isLine numbers

end Sound

end Database

end Depot
