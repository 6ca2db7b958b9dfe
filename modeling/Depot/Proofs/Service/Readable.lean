import Depot.Proofs.Database.Doubles
import Depot.Proofs.Database.Orderly
import Depot.Proofs.Service.Requests

/-!
Contract: when what was written can be read again.

A column of doubles keeps no NaN: it stays empty, and a line with an empty column of its kind
cannot be read, nor can the list of its shipment's lines. Nothing else that is written stands
in the way of reading, so that a run keeps everything readable just when no accepted write
puts NaN into a line.

Owns: readable databases, and the runs that keep them readable.
Does not own: what is read (`Depot.Proofs.Database.Orderly`).
-/

namespace Depot

open Database Decimal

namespace Database

/-! ### Lines -/

/-- A line that was written can be read if and only if none of its doubles is NaN. -/
theorem LineRow.readable_written (line : Line) :
    (∃ record, (written line).read = .ok record) ↔ line.content.IsNumeric := by
  constructor
  · rintro ⟨record, reads⟩
    have notNaN : ∀ {number value : Binary64},
        (Cell.ofDouble number).stored .real = .real value → number.isNaN = false := by
      intro number value kept
      by_contra nan
      rw [Bool.not_eq_false] at nan
      rw [Cell.ofDouble, if_pos nan] at kept
      cases kept
    obtain ⟨-, ⟨raw, readKind, isKind⟩, readContent, -⟩ := (read_eq_ok _ record).mp reads
    rw [kind_written] at readKind
    cases readKind
    rw [read?_word_lineKind] at isKind
    obtain ⟨-, columns⟩ := (readContent_eq_ok ..).mp readContent
    obtain ⟨recordId, recordShipment, recordItem, recordContent⟩ := record
    obtain ⟨id, shipmentId, item, content⟩ := line
    -- The record is of the kind of the line, whose columns of doubles are therefore filled.
    cases content with
    | stockIn stock price =>
        cases recordContent with
        | stockIn other otherPrice =>
            obtain ⟨-, -, -, packs, priced⟩ := (readStock_eq_ok ..).mp columns
            exact ⟨notNaN packs, notNaN priced⟩
        | stockOut | service => cases isKind
    | stockOut stockLineId stock price =>
        cases recordContent with
        | stockOut otherLineId other otherPrice =>
            obtain ⟨-, -, -, packs, priced⟩ := (readStock_eq_ok ..).mp columns.2
            exact ⟨notNaN packs, notNaN priced⟩
        | stockIn | service => cases isKind
    | service total note =>
        cases recordContent with
        | service otherTotal otherNote => exact notNaN columns.1
        | stockIn | stockOut => cases isKind
  · intro numeric
    exact ⟨line.kept, read_written numeric⟩

/-! ### Shipments -/

/-- A row of a shipment that can be read if its number can. -/
structure ShipmentRow.Legible (row : ShipmentRow) : Prop where
  party : ∃ party, row.party = .text party
  onHold : ∃ onHold, row.onHold = .ofBool onHold
  createdAt : ∃ moment, row.createdAt = .ofInstant moment

theorem ShipmentRow.Legible.read {row : ShipmentRow} (legible : row.Legible) (sound : row.Sound)
    {number : Int64} (numbered : row.number = .integer number.toInt) :
    ∃ shipment, row.read = .ok shipment := by
  obtain ⟨id, isId⟩ := sound.id
  obtain ⟨direction, isDirection⟩ := sound.direction
  obtain ⟨status, isStatus⟩ := sound.status
  obtain ⟨party, isParty⟩ := legible.party
  obtain ⟨onHold, isHold⟩ := legible.onHold
  obtain ⟨createdAt, isCreated⟩ := legible.createdAt
  have written : row = .ofShipment ⟨id, number, direction, status, party, onHold, createdAt⟩ := by
    cases row
    simp_all only [ofShipment]
  rw [written]
  exact ⟨_, ShipmentRow.read_ofShipment _⟩

theorem Effect.legible {database after : Database} {write : Write} {event? : Option Event}
    (effect : Effect database write event? after)
    (legible : ∀ row ∈ database.shipments, row.Legible) :
    ∀ row ∈ after.shipments, row.Legible := by
  have changed : ∀ (id : String) (change : ShipmentRow → ShipmentRow),
      (∀ row : ShipmentRow, row.Legible → (change row).Legible) →
      ∀ row ∈ (database.mapShipment id change).shipments, row.Legible := by
    intro id change keeps row member
    obtain ⟨old, inside, rfl⟩ := List.mem_map.mp member
    split
    next => exact keeps old (legible old inside)
    next => exact legible old inside
  cases effect with
  | createShipment id now direction party accepted =>
      exact forall_mem_append_singleton legible ⟨⟨party, rfl⟩, ⟨false, rfl⟩, ⟨now, rfl⟩⟩
  | setShipmentStatus id status =>
      refine changed id _ ?_
      exact fun row old => ⟨old.party, old.onHold, old.createdAt⟩
  | setShipmentHold id onHold =>
      refine changed id _ ?_
      exact fun row old => ⟨old.party, ⟨onHold, rfl⟩, old.createdAt⟩
  | deleteShipments ids => exact fun row member => legible row (List.mem_filter.mp member).1
  | refused | addLine | deleteLines | updatePacks | createRequisition | setRequisitionStatus
  | deleteRequisitions => exact legible

theorem legible_writeAll (writes : List Write) :
    ∀ row ∈ (empty.writeAll writes).shipments, row.Legible := by
  induction writes using run_induction with
  | start => exact List.forall_mem_nil _
  | step writes write inductionHypothesis effect => exact effect.legible inductionHypothesis

/-- A shipment is found under its direction and number. -/
theorem Sound.find?_place {database : Database} (sound : database.Sound) {row : ShipmentRow}
    (member : row ∈ database.shipments) {direction : Direction} {number : Int64}
    (directed : row.direction = .text direction.word)
    (numbered : row.number = .integer number.toInt) :
    (database.shipments.find? fun other => other.direction = .text direction.word &&
      other.number.agrees (.integer number.toInt)) = some row := by
  cases found : database.shipments.find? fun other => other.direction = .text direction.word &&
      other.number.agrees (.integer number.toInt) with
  | none =>
      have missing := List.find?_eq_none.mp found row member
      rw [directed, numbered, Cell.agrees_integer] at missing
      simp at missing
  | some other =>
      have inside := List.mem_of_find?_eq_some found
      have fits := List.find?_some found
      obtain ⟨sameDirection, agrees⟩ := Bool.and_eq_true_iff.mp fits
      have level := of_decide_eq_true (Bool.and_eq_true_iff.mp agrees).2
      have samePlace : other.place = row.place := by
        refine Prod.ext ((of_decide_eq_true sameDirection).trans directed.symm) ?_
        rw [← numbered] at level
        exact (Cell.order_eq_iff other.number row.number).mp level
      exact congrArg some (List.inj_on_of_nodup_map sound.shipmentPlaces inside member samePlace)

/-! ### Requisitions -/

/-- A row of a requisition that can be read if its number can. -/
structure RequisitionRow.Legible (row : RequisitionRow) : Prop where
  party : ∃ party, row.party = .text party
  createdAt : ∃ moment, row.createdAt = .ofInstant moment

theorem RequisitionRow.Legible.read {row : RequisitionRow} (legible : row.Legible)
    (sound : row.Sound) {number : Int64} (numbered : row.number = .integer number.toInt) :
    ∃ requisition, row.read = .ok requisition := by
  obtain ⟨id, isId⟩ := sound.id
  obtain ⟨status, isStatus⟩ := sound.status
  obtain ⟨party, isParty⟩ := legible.party
  obtain ⟨createdAt, isCreated⟩ := legible.createdAt
  have written : row = .ofRequisition ⟨id, number, status, party, createdAt⟩ := by
    cases row
    simp_all only [ofRequisition]
  rw [written]
  exact ⟨_, RequisitionRow.read_ofRequisition _⟩

theorem Effect.legibleRequisitions {database after : Database} {write : Write}
    {event? : Option Event} (effect : Effect database write event? after)
    (legible : ∀ row ∈ database.requisitions, row.Legible) :
    ∀ row ∈ after.requisitions, row.Legible := by
  cases effect with
  | createRequisition id now party accepted =>
      exact forall_mem_append_singleton legible ⟨⟨party, rfl⟩, ⟨now, rfl⟩⟩
  | setRequisitionStatus id status =>
      intro row member
      obtain ⟨old, inside, rfl⟩ := List.mem_map.mp member
      split
      next => exact ⟨(legible old inside).party, (legible old inside).createdAt⟩
      next => exact legible old inside
  | deleteRequisitions ids => exact fun row member => legible row (List.mem_filter.mp member).1
  | refused | createShipment | setShipmentStatus | setShipmentHold | deleteShipments | addLine
  | deleteLines | updatePacks => exact legible

theorem legibleRequisitions_writeAll (writes : List Write) :
    ∀ row ∈ (empty.writeAll writes).requisitions, row.Legible := by
  induction writes using run_induction with
  | start => exact List.forall_mem_nil _
  | step writes write inductionHypothesis effect =>
      exact effect.legibleRequisitions inductionHypothesis

end Database

/-! ### Databases -/

namespace Database

/-- Every stored line can be read, the lines of every shipment can be listed, and every
stored shipment can be looked up under its number, which is one of 64 bits unless the table
has seen `2 ^ 63` shipments. -/
structure Readable (database : Database) : Prop where
  lines : ∀ row ∈ database.lines, ∀ id, row.id = .text id →
    ∃ line, database.lineById id = .ok (some line)
  lists : ∀ shipmentId, ∃ lines, database.linesOf shipmentId = .ok lines
  details : ∀ row ∈ database.shipments, ∀ (direction : Direction) (number : Int64),
    row.direction = .text direction.word → row.number = .integer number.toInt →
    ∃ detail, Service.shipmentDetail database direction number = .ok detail

theorem readable_of_numeric {writes : List Write}
    (numeric : ∀ line ∈ lineAccount.left (empty.history writes), line.content.IsNumeric) :
    (empty.writeAll writes).Readable := by
  have sound := sound_writeAll writes
  have lists : ∀ shipmentId, ∃ lines, (empty.writeAll writes).linesOf shipmentId = .ok lines := by
    intro shipmentId
    exact ⟨_, linesOf_writeAll numeric shipmentId⟩
  refine ⟨?_, lists, ?_⟩
  · intro row member id named
    have table := lines_writeAll writes
    rw [table] at member
    obtain ⟨line, left, rfl⟩ := List.mem_map.mp member
    refine ⟨line.kept, (sound.lineById_eq_ok ..).mpr ⟨_, ?_, named, ?_⟩⟩
    · rw [table]
      exact member
    · exact LineRow.read_written (numeric line left)
  · intro row member direction number directed numbered
    obtain ⟨shipment, reads⟩ :=
      (legible_writeAll writes row member).read (sound.shipments row member) numbered
    obtain ⟨lines, listed⟩ := lists shipment.id
    have found : (empty.writeAll writes).shipmentByNumber direction number =
        .ok (some shipment) := by
      rw [shipmentByNumber, whenOpen, if_pos sound.isOpen, readFirst_eq_ok_some]
      exact ⟨row, sound.find?_place member directed numbered, reads⟩
    refine ⟨⟨shipment, lines⟩, ?_⟩
    rw [Service.shipmentDetail, bind_eq_ok]
    refine ⟨shipment, (Service.found_eq_ok ..).mpr found, ?_⟩
    rw [listed]
    rfl

theorem numeric_of_readable {writes : List Write} (readable : (empty.writeAll writes).Readable) :
    ∀ line ∈ lineAccount.left (empty.history writes), line.content.IsNumeric := by
  intro line left
  have member : LineRow.written line ∈ (empty.writeAll writes).lines := by
    rw [lines_writeAll]
    exact List.mem_map_of_mem left
  have sound := sound_writeAll writes
  obtain ⟨record, found⟩ := readable.lines _ member line.id (LineRow.id_written line)
  obtain ⟨row, inside, named, reads⟩ := (sound.lineById_eq_ok ..).mp found
  have sameId : row.id = (LineRow.written line).id := named.trans (LineRow.id_written line).symm
  have same : row = .written line := List.inj_on_of_nodup_map sound.lineIds inside member sameId
  exact (LineRow.readable_written line).mp ⟨record, same ▸ reads⟩

/-! ### Runs -/

/-- Whether no line that an accepted write leaves behind has got a NaN from it. -/
def Write.PutsNumbers (write : Write) : Prop :=
  write.PutsGood fun number => number.isNaN = false

/-- Whether everything can be read after every accepted write of a run. -/
def StaysReadable (writes : List Write) : Prop :=
  EachAccepted (fun before write => (empty.writeAll (before ++ [write])).Readable) writes

/-- The line of stock that a count is for. -/
theorem exists_left_of_canSetPacks {writes : List Write} {change : String × Binary64}
    (can : (empty.writeAll writes).CanSetPacks change) :
    ∃ line ∈ lineAccount.left (empty.history writes), line.id = change.1 ∧
      line.isService = false := by
  rw [CanSetPacks] at can
  cases found : (empty.writeAll writes).lineRow? change.1 with
  | none =>
      rw [found] at can
      cases can
  | some row =>
      rw [found, Option.any_some] at can
      have member := List.mem_of_find?_eq_some found
      have named : row.id = .text change.1 := by simpa using List.find?_some found
      rw [lines_writeAll] at member
      obtain ⟨line, left, rfl⟩ := List.mem_map.mp member
      rw [LineRow.id_written] at named
      rw [isStockRow_of_kind (LineRow.kind_written line)] at can
      refine ⟨line, left, Cell.text.inj named, ?_⟩
      exact decide_eq_false (of_decide_eq_true can)

theorem isNaN_of_isNumeric_withPacks {line : Line} {packs : Binary64}
    (stock : line.isService = false) (numeric : (line.withPacks packs).content.IsNumeric) :
    packs.isNaN = false := by
  obtain ⟨id, shipmentId, item, content⟩ := line
  cases content with
  | stockIn quantity price => exact numeric.1
  | stockOut stockLineId quantity price => exact numeric.1
  | service total note => cases stock

/-- Counts are put into lines that are there, so that one that is NaN shows. -/
theorem putsNumbers_of_numeric {before : List Write} {write : Write}
    (accepted : (empty.writeAll before).Accepts write)
    (numeric : ∀ line ∈ lineAccount.left (empty.history (before ++ [write])),
      line.content.IsNumeric) : write.PutsNumbers := by
  have isOpen := (sound_writeAll before).isOpen
  have effect := effect_write isOpen write
  obtain ⟨event, answered⟩ := Option.isSome_iff_exists.mp accepted
  rw [history_append_singleton, answered, Option.toList_some] at numeric
  rw [answered] at effect
  generalize (empty.writeAll before).write write = after at effect
  cases write with
  | addLine id shipmentId item content =>
      cases effect
      rw [lineAccount.left_append_made rfl (fun line => rfl)] at numeric
      have new := numeric _ (List.mem_append_right _ (List.mem_singleton_self _))
      exact content.isNumeric_iff.mp new
  | updatePacks changes =>
      intro id packs last
      obtain ⟨count, stored, -⟩ := Option.map_eq_some_iff.mp answered
      have granted : ((empty.writeAll before).updatePacks changes).2 = .ok count := by
        cases ran : ((empty.writeAll before).updatePacks changes).2 with
        | error fault =>
            rw [ran] at stored
            cases stored
        | ok other =>
            rw [ran] at stored
            cases stored
            rfl
      have can := canSetPacks_of_updatePacks isOpen granted _ (mem_of_lastCount? last)
      obtain ⟨line, left, named, stock⟩ := exists_left_of_canSetPacks can
      cases effect
      rw [lineAccount.left_append_changed rfl (fun line => rfl)] at numeric
      have changed := numeric _ (List.mem_map_of_mem left)
      rw [Line.recount, named, last] at changed
      exact isNaN_of_isNumeric_withPacks stock changed
  | createShipment | setShipmentStatus | setShipmentHold | deleteShipments | deleteLines
  | createRequisition | setRequisitionStatus | deleteRequisitions => trivial

/-- A run stays readable exactly when none of its accepted writes puts NaN into a line. -/
theorem staysReadable_iff (writes : List Write) :
    StaysReadable writes ↔ EachAccepted (fun _ write => write.PutsNumbers) writes := by
  constructor
  · intro stays before write after split accepted
    exact putsNumbers_of_numeric accepted
      (numeric_of_readable (stays before write after split accepted))
  · intro numbers before write after split accepted
    refine readable_of_numeric (allGood_history ?_).isNumeric
    rintro earlier other later same
    refine numbers earlier other (later ++ after) ?_
    rw [split, List.append_cons, same]
    simp

/-! ### A line that cannot be read -/

namespace Unreadable

def opening : List Write := [.createShipment "a" .epoch .inbound "Clinic"]

/-- A line with NaN packs. -/
def line : Write :=
  .addLine "b" "a" ⟨"c", "C", "Gauze"⟩ (.stockIn ⟨none, none, 1, ⟨0x7ff8000000000000⟩⟩ .zero)

/-- The line is accepted, and afterwards it is not read, nor is its shipment. -/
theorem not_staysReadable_unreadable : ¬StaysReadable (opening ++ [line]) := by
  intro stays
  have readable := stays opening line [] rfl (by decide +kernel)
  obtain ⟨lines, listed⟩ := readable.lists "a"
  have refused : ((empty.writeAll (opening ++ [line])).linesOf "a").toOption = none := by
    decide +kernel
  rw [listed] at refused
  cases refused

end Unreadable

end Database

end Depot
