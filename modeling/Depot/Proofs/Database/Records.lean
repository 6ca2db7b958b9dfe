import Depot.Stock.Row
import Depot.Proofs.Database.Batches
import Depot.Proofs.Database.Sound

/-!
Contract: the records of a sound database, and its lists after deletions.

Under an id there is at most one record, and its row spells the words that the record has.
Dropping rows and then listing them gives the list that was there before, without the
records of these rows and in the same order. For the lists that are sorted by number this
needs that no two numbers are the same.

Owns: what is found under an id, and lists after deletions.
Does not own: which deletions go through (`Depot.Proofs.Service.Requests`).
-/

namespace Depot

open Database

/-! ### Records -/

namespace Database.Sound

variable {database : Database}

theorem lineById_eq_ok (sound : database.Sound) (id : String) (line : Line) :
    database.lineById id = .ok (some line) ↔
      ∃ row ∈ database.lines, row.id = .text id ∧ row.read = .ok line := by
  rw [lineById, whenOpen, if_pos sound.isOpen, readFirst_eq_ok_some]
  simp only [lineRow?, find?_eq_some_iff LineRow.id sound.lineIds, and_assoc]

theorem shipmentById_eq_ok (sound : database.Sound) (id : String) (shipment : Shipment) :
    database.shipmentById id = .ok (some shipment) ↔
      ∃ row ∈ database.shipments, row.id = .text id ∧ row.read = .ok shipment := by
  rw [shipmentById, whenOpen, if_pos sound.isOpen, readFirst_eq_ok_some]
  simp only [shipmentRow?, find?_eq_some_iff ShipmentRow.id sound.shipmentIds, and_assoc]

theorem requisitionById_eq_ok (sound : database.Sound) (id : String)
    (requisition : Requisition) :
    database.requisitionById id = .ok (some requisition) ↔
      ∃ row ∈ database.requisitions, row.id = .text id ∧ row.read = .ok requisition := by
  rw [requisitionById, whenOpen, if_pos sound.isOpen, readFirst_eq_ok_some]
  simp only [requisitionRow?, find?_eq_some_iff RequisitionRow.id sound.requisitionIds, and_assoc]

end Database.Sound

namespace Database

/-- A sound row of a line names the ids and the kind of the line that it reads as. -/
theorem LineRow.Sound.of_read {row : LineRow} {line : Line} (sound : row.Sound)
    (reads : row.read = .ok line) :
    row.id = .text line.id ∧ row.shipmentId = .text line.shipmentId ∧
      row.kind = .text line.kind.word := by
  obtain ⟨readId, ⟨raw, readKind, isKind⟩, -, readShipment, -⟩ := (read_eq_ok row line).mp reads
  obtain ⟨id, named⟩ := sound.id
  obtain ⟨shipmentId, owned⟩ := sound.shipmentId
  obtain ⟨kind, written⟩ := sound.kind
  rw [named, Cell.readText_text] at readId
  rw [owned, Cell.readText_text] at readShipment
  rw [written, Cell.readText_text] at readKind
  cases readId
  cases readShipment
  cases readKind
  rw [read?_word_lineKind] at isKind
  cases isKind
  exact ⟨named, owned, written⟩

/-- Stock is what is not a service. -/
theorem isStockRow_of_kind {row : LineRow} {kind : LineKind}
    (written : row.kind = .text kind.word) : isStockRow row = decide (kind ≠ .service) := by
  unfold isStockRow
  rw [written]
  cases kind <;> rfl

theorem ShipmentRow.Sound.of_read {row : ShipmentRow} {shipment : Shipment} (sound : row.Sound)
    (reads : row.read = .ok shipment) :
    row.id = .text shipment.id ∧ row.direction = .text shipment.direction.word ∧
      row.status = .text shipment.status.word := by
  obtain ⟨⟨_, readDirection, isDirection⟩, ⟨_, readStatus, isStatus⟩, readId, -⟩ :=
    (read_eq_ok row shipment).mp reads
  obtain ⟨id, named⟩ := sound.id
  obtain ⟨direction, directed⟩ := sound.direction
  obtain ⟨status, written⟩ := sound.status
  rw [named, Cell.readText_text] at readId
  rw [directed, Cell.readText_text] at readDirection
  rw [written, Cell.readText_text] at readStatus
  cases readId
  cases readDirection
  cases readStatus
  rw [read?_word_direction] at isDirection
  rw [read?_word_shipmentStatus] at isStatus
  cases isDirection
  cases isStatus
  exact ⟨named, directed, written⟩

theorem RequisitionRow.Sound.of_read {row : RequisitionRow} {requisition : Requisition}
    (sound : row.Sound) (reads : row.read = .ok requisition) :
    row.id = .text requisition.id ∧ row.status = .text requisition.status.word := by
  obtain ⟨⟨_, readStatus, isStatus⟩, readId, -⟩ := (read_eq_ok row requisition).mp reads
  obtain ⟨id, named⟩ := sound.id
  obtain ⟨status, written⟩ := sound.status
  rw [named, Cell.readText_text] at readId
  rw [written, Cell.readText_text] at readStatus
  cases readId
  cases readStatus
  rw [read?_word_requisitionStatus] at isStatus
  cases isStatus
  exact ⟨named, written⟩

end Database

/-! ### Lists -/

namespace Database

theorem listing_eq_ok {α β : Type} (database : Database) (isOpen : database.isOpen = true)
    (read : α → Except Fault β) (rows : List α) (records : List β) :
    database.whenOpen (readAll read rows) = .ok records ↔ readAll read rows = .ok records := by
  rw [whenOpen, if_pos isOpen]

/-- Rows with different ids are read as records with different ids. -/
theorem nodup_of_readAll {α β : Type} {read : α → Except Fault β} {rows : List α}
    {records : List β} (reads : readAll read rows = .ok records) (idCell : α → Cell)
    {id : β → String}
    (named : ∀ row ∈ rows, ∀ record, read row = .ok record → idCell row = .text (id record))
    (distinct : (rows.map idCell).Nodup) : (records.map id).Nodup := by
  have cells : rows.map idCell = records.map (Cell.text ∘ id) :=
    map_eq_of_readAll reads idCell (Cell.text ∘ id) named
  refine List.Nodup.of_map Cell.text ?_
  rw [List.map_map, ← cells]
  exact distinct

namespace Sound

variable {database : Database}

/-- A line that is listed is found under its id. -/
theorem lineById_of_mem (sound : database.Sound) {shipmentId : String} {lines : List Line}
    (reads : database.linesOf shipmentId = .ok lines) {line : Line} (member : line ∈ lines) :
    database.lineById line.id = .ok (some line) ∧ line.shipmentId = shipmentId := by
  rw [linesOf, listing_eq_ok database sound.isOpen] at reads
  obtain ⟨row, listed, isLine⟩ := mem_of_readAll reads member
  obtain ⟨inside, owned⟩ := List.mem_filter.mp listed
  obtain ⟨named, belongs, -⟩ := (sound.lines row inside).of_read isLine
  refine ⟨(sound.lineById_eq_ok ..).mpr ⟨row, inside, named, isLine⟩, ?_⟩
  rw [belongs] at owned
  exact Cell.text.inj (of_decide_eq_true owned)

/-- The lines of a shipment have different ids. -/
theorem nodup_linesOf (sound : database.Sound) {shipmentId : String} {lines : List Line}
    (reads : database.linesOf shipmentId = .ok lines) : (lines.map Line.id).Nodup := by
  rw [linesOf, listing_eq_ok database sound.isOpen] at reads
  refine nodup_of_readAll reads LineRow.id ?_ ?_
  · intro row member line isLine
    exact ((sound.lines row (List.mem_filter.mp member).1).of_read isLine).1
  · exact (List.filter_sublist.map LineRow.id).nodup sound.lineIds

/-- A shipment that is listed is found under its id. -/
theorem shipmentById_of_mem (sound : database.Sound) {direction : Direction}
    {shipments : List Shipment} (reads : database.listShipments direction = .ok shipments)
    {shipment : Shipment} (member : shipment ∈ shipments) :
    database.shipmentById shipment.id = .ok (some shipment) := by
  rw [listShipments, listing_eq_ok database sound.isOpen] at reads
  obtain ⟨row, listed, isShipment⟩ := mem_of_readAll reads member
  have inside : row ∈ database.shipments := (List.mem_filter.mp (List.mem_mergeSort.mp listed)).1
  obtain ⟨named, -⟩ := (sound.shipments row inside).of_read isShipment
  exact (sound.shipmentById_eq_ok ..).mpr ⟨row, inside, named, isShipment⟩

theorem nodup_listShipments (sound : database.Sound) {direction : Direction}
    {shipments : List Shipment} (reads : database.listShipments direction = .ok shipments) :
    (shipments.map Shipment.id).Nodup := by
  rw [listShipments, listing_eq_ok database sound.isOpen] at reads
  have sorted := byNumber_perm ShipmentRow.number (database.shipmentRowsOf direction)
  refine nodup_of_readAll reads ShipmentRow.id ?_ ?_
  · intro row member shipment isShipment
    have inside : row ∈ database.shipments :=
      (List.mem_filter.mp (List.mem_mergeSort.mp member)).1
    exact ((sound.shipments row inside).of_read isShipment).1
  · refine (sorted.map ShipmentRow.id).nodup_iff.mpr ?_
    exact (List.filter_sublist.map ShipmentRow.id).nodup sound.shipmentIds

/-- A requisition that is listed is found under its id. -/
theorem requisitionById_of_mem (sound : database.Sound) {requisitions : List Requisition}
    (reads : database.listRequisitions = .ok requisitions) {requisition : Requisition}
    (member : requisition ∈ requisitions) :
    database.requisitionById requisition.id = .ok (some requisition) := by
  rw [listRequisitions, listing_eq_ok database sound.isOpen] at reads
  obtain ⟨row, listed, isRequisition⟩ := mem_of_readAll reads member
  have inside : row ∈ database.requisitions := List.mem_mergeSort.mp listed
  obtain ⟨named, -⟩ := (sound.requisitions row inside).of_read isRequisition
  exact (sound.requisitionById_eq_ok ..).mpr ⟨row, inside, named, isRequisition⟩

theorem nodup_listRequisitions (sound : database.Sound) {requisitions : List Requisition}
    (reads : database.listRequisitions = .ok requisitions) :
    (requisitions.map Requisition.id).Nodup := by
  rw [listRequisitions, listing_eq_ok database sound.isOpen] at reads
  have sorted := byNumber_perm RequisitionRow.number database.requisitions
  refine nodup_of_readAll reads RequisitionRow.id ?_ ?_
  · intro row member requisition isRequisition
    exact ((sound.requisitions row (List.mem_mergeSort.mp member)).of_read isRequisition).1
  · exact (sorted.map RequisitionRow.id).nodup_iff.mpr sound.requisitionIds

/-- The lines of a shipment after lines were dropped. -/
theorem linesOf_withoutLines (sound : database.Sound) {shipmentId : String} {lines : List Line}
    (reads : database.linesOf shipmentId = .ok lines) (ids : List String) :
    (database.withoutLines ids).linesOf shipmentId = .ok (Rows.without ids lines) := by
  rw [linesOf, listing_eq_ok database sound.isOpen] at reads
  rw [linesOf, listing_eq_ok (database.withoutLines ids) sound.isOpen, withoutLines,
    List.filter_comm]
  refine readAll_filter reads _ _ ?_
  intro row member line isLine
  have inside : row ∈ database.lines := (List.mem_filter.mp member).1
  obtain ⟨named, -⟩ := (sound.lines row inside).of_read isLine
  rw [named, Cell.isOneOf_text]
  rfl

/-- The shipments of a direction after shipments were dropped. -/
theorem listShipments_withoutShipments (sound : database.Sound) {direction : Direction}
    {shipments : List Shipment} (reads : database.listShipments direction = .ok shipments)
    (ids : List String) :
    (database.withoutShipments ids).listShipments direction =
      .ok (Rows.without ids shipments) := by
  have distinct : ∀ left ∈ database.shipmentRowsOf direction,
      ∀ right ∈ database.shipmentRowsOf direction,
        left.number.rank = right.number.rank → left = right := by
    intro left memberLeft right memberRight same
    obtain ⟨insideLeft, directedLeft⟩ := List.mem_filter.mp memberLeft
    obtain ⟨insideRight, directedRight⟩ := List.mem_filter.mp memberRight
    have samePlace : left.place = right.place := by
      refine Prod.ext ?_ same
      exact (of_decide_eq_true directedLeft).trans (of_decide_eq_true directedRight).symm
    exact List.inj_on_of_nodup_map sound.shipmentPlaces insideLeft insideRight samePlace
  have kept : (database.withoutShipments ids).shipmentRowsOf direction =
      (database.shipmentRowsOf direction).filter fun row => !row.id.isOneOf ids :=
    List.filter_comm _ _ _
  rw [listShipments, listing_eq_ok database sound.isOpen] at reads
  rw [listShipments, listing_eq_ok (database.withoutShipments ids) sound.isOpen, kept,
    byNumber_filter _ _ distinct]
  refine readAll_filter reads _ _ ?_
  intro row member shipment isShipment
  have inside : row ∈ database.shipments :=
    (List.mem_filter.mp (List.mem_mergeSort.mp member)).1
  obtain ⟨named, -⟩ := (sound.shipments row inside).of_read isShipment
  rw [named, Cell.isOneOf_text]
  rfl

/-- The requisitions after requisitions were dropped. -/
theorem listRequisitions_withoutRequisitions (sound : database.Sound)
    {requisitions : List Requisition} (reads : database.listRequisitions = .ok requisitions)
    (ids : List String) :
    (database.withoutRequisitions ids).listRequisitions =
      .ok (Rows.without ids requisitions) := by
  rw [listRequisitions, listing_eq_ok database sound.isOpen] at reads
  rw [listRequisitions, listing_eq_ok (database.withoutRequisitions ids) sound.isOpen,
    withoutRequisitions,
    byNumber_filter _ _ fun _ left _ right =>
      List.inj_on_of_nodup_map sound.requisitionNumbers left right]
  refine readAll_filter reads _ _ ?_
  intro row member requisition isRequisition
  obtain ⟨named, -⟩ :=
    (sound.requisitions row (List.mem_mergeSort.mp member)).of_read isRequisition
  rw [named, Cell.isOneOf_text]
  rfl

end Sound

end Database

end Depot
