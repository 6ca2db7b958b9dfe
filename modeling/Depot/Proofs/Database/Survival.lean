import Depot.Proofs.Service.Readable

/-!
Contract: a line that was added is given back as it was added.

A line that is added under a fresh id, to a shipment that is there, stays what it was until it is
deleted or given another pack count, whatever else is written: it is found under its id with all
of its fields, its numbers by value. With the lines of its shipment it is listed as long as all
of these can be read. A line that holds NaN cannot, and then the whole list is refused.

Owns: one line over the writes that come after it.
Does not own: which databases can be read (`Depot.Proofs.Service.Readable`).
-/

namespace Depot

open Database Decimal

theorem lastCount?_append (early later : List (String × Binary64)) (id : String) :
    lastCount? (early ++ later) id = (lastCount? later id).or (lastCount? early id) := by
  rw [lastCount?, List.reverse_append, List.find?_append, lastCount?, lastCount?]
  cases later.reverse.find? fun change => change.1 = id <;> rfl

namespace Line

variable (line : Line) (changes : List (String × Binary64))

theorem recount_eq : (line.recount changes).id = line.id ∧
    (line.recount changes).shipmentId = line.shipmentId ∧
    (line.recount changes).isService = line.isService := by
  rw [recount]
  cases lastCount? changes line.id with
  | none => exact ⟨rfl, rfl, rfl⟩
  | some packs => exact ⟨rfl, rfl, line.isService_withPacks packs⟩

/-- Counts after counts are counts. -/
theorem recount_recount (later : List (String × Binary64)) :
    (line.recount changes).recount later = line.recount (changes ++ later) := by
  rw [recount, (line.recount_eq changes).1, recount, recount, lastCount?_append]
  cases lastCount? later line.id with
  | none => rfl
  | some packs =>
      cases lastCount? changes line.id with
      | none => rfl
      | some earlier => exact line.withPacks_withPacks earlier packs

theorem isNumeric_recount (numeric : line.content.IsNumeric)
    (counted : ∀ packs, lastCount? changes line.id = some packs → packs.isNaN = false) :
    (line.recount changes).content.IsNumeric := by
  rw [recount]
  cases last : lastCount? changes line.id with
  | none => exact numeric
  | some packs => exact numeric.withPacks (counted packs last)

end Line

namespace Database

/-! ### What events are to one line -/

/-- Whether the event ends the line. -/
def Event.ends (line : Line) : Event → Bool
  | .deletedLines ids => ids.contains line.id
  | .deletedShipments ids => ids.contains line.shipmentId
  | .createdShipment .. | .setShipmentStatus .. | .setShipmentHold .. | .addedLine ..
  | .updatedPacks .. | .createdRequisition .. | .setRequisitionStatus ..
  | .deletedRequisitions .. => false

/-- The pack counts that the event sets. -/
def Event.counts : Event → List (String × Binary64)
  | .updatedPacks changes => changes
  | .createdShipment .. | .setShipmentStatus .. | .setShipmentHold .. | .deletedShipments ..
  | .addedLine .. | .deletedLines .. | .createdRequisition .. | .setRequisitionStatus ..
  | .deletedRequisitions .. => []

theorem next?_of_spared {event : Event} {line : Line} (spared : event.ends line = false) :
    lineAccount.next? event line = some (line.recount event.counts) := by
  cases event with
  | deletedLines ids | deletedShipments ids =>
      simp only [Event.ends] at spared
      simp only [lineAccount, spared]
      rfl
  | updatedPacks | createdShipment | setShipmentStatus | setShipmentHold | addedLine
  | createdRequisition | setRequisitionStatus | deletedRequisitions => rfl

theorem ends_recount (event : Event) (line : Line) (changes : List (String × Binary64)) :
    event.ends (line.recount changes) = event.ends line := by
  obtain ⟨sameId, sameShipment, -⟩ := line.recount_eq changes
  cases event <;> simp only [Event.ends, sameId, sameShipment]

/-- A line that no event ends is in the end what the counts have made of it. -/
theorem fate?_of_spared {events : List Event} {line : Line}
    (spared : ∀ event ∈ events, event.ends line = false) :
    lineAccount.fate? events line = some (line.recount (events.flatMap Event.counts)) := by
  induction events generalizing line with
  | nil => rfl
  | cons event events inductionHypothesis =>
      obtain ⟨first, rest⟩ := List.forall_mem_cons.mp spared
      have spared : ∀ later ∈ events, later.ends (line.recount event.counts) = false := by
        intro later member
        rw [ends_recount]
        exact rest later member
      rw [Account.fate?, next?_of_spared first, Option.bind_some, inductionHypothesis spared,
        List.flatMap_cons, Line.recount_recount]

/-- A record that was made, and not ended later, is left. -/
theorem Account.mem_left {ρ : Type} (account : Account ρ) {event : Event} {record last : ρ}
    (made : account.made? event = some record) {later : List Event}
    (fate : account.fate? later record = some last) :
    ∀ early : List Event, last ∈ account.left (early ++ event :: later)
  | [] => by
      rw [List.nil_append, left, made, Option.bind_some, fate]
      exact List.mem_append_left _ (List.mem_singleton_self last)
  | _ :: early => List.mem_append_right _ (account.mem_left made fate early)

/-! ### Additions -/

/-- A line that is added, with what is written before and after it. -/
structure Addition where
  early : List Write
  line : Line
  later : List Write

namespace Addition

variable (addition : Addition)

def write : Write :=
  .addLine addition.line.id addition.line.shipmentId addition.line.item addition.line.content

def before : Database := empty.writeAll addition.early

/-- The database with the answer to the addition. -/
def ran : Database × Except Fault Line :=
  addition.before.addLine addition.line.id addition.line.shipmentId addition.line.item
    addition.line.content

def writes : List Write := addition.early ++ addition.write :: addition.later

def after : Database := empty.writeAll addition.writes

/-- What the later writes did. -/
def events : List Event := (addition.before.write addition.write).history addition.later

/-- The line with the last of the counts that the later writes gave it, if any. -/
def last : Line := addition.line.recount (addition.events.flatMap Event.counts)

/-- Whether the shipment of the line is there. -/
def Known : Prop := ∃ row ∈ addition.before.shipments, row.id = .text addition.line.shipmentId

instance : Decidable addition.Known :=
  inferInstanceAs (Decidable
    (∃ row ∈ addition.before.shipments, row.id = .text addition.line.shipmentId))

/-- A line without NaN is added to a shipment that is there, under a fresh id, and later neither
deleted nor left with NaN packs. -/
structure Proper : Prop where
  known : addition.Known
  fresh : ∀ row ∈ addition.before.lines, row.id ≠ .text addition.line.id
  numeric : addition.line.content.IsNumeric
  counted : ∀ packs, lastCount? (addition.events.flatMap Event.counts) addition.line.id =
    some packs → packs.isNaN = false
  spared : ∀ event ∈ addition.events, event.ends addition.line = false

end Addition

/-- Whether a line is found under its id, by value, and listed once with its shipment. -/
def GivesBack (database : Database) (line : Line) : Prop :=
  ∃ kept lines, database.lineById line.id = .ok (some kept) ∧ kept.same line = true ∧
    database.linesOf line.shipmentId = .ok lines ∧ kept ∈ lines ∧ (lines.map Line.id).Nodup

/-- What becomes of a line that is added. -/
structure Addition.Settled (addition : Addition) : Prop where
  /-- Without its shipment the line is refused, and nothing changes. -/
  unknown : ¬addition.Known → ∃ fault, addition.ran = (addition.before, .error fault)
  answered : addition.Proper → addition.ran.2 = .ok addition.line
  found : addition.Proper → ∃ kept, addition.after.lineById addition.line.id = .ok (some kept) ∧
    kept.same addition.last = true
  /-- The counts of stock may be set. -/
  counts : addition.Proper → addition.line.isService = false → ∀ packs,
    (addition.after.updatePacks [(addition.line.id, packs)]).2 = .ok 1
  /-- The line is given back just when no line that is left of its shipment holds NaN. -/
  givesBack : addition.Proper → (GivesBack addition.after addition.last ↔
    ∀ other ∈ lineAccount.left (empty.history addition.writes),
      other.shipmentId = addition.line.shipmentId → other.content.IsNumeric)
  /-- Writes that put no NaN into lines are enough for that. -/
  numbers : addition.Proper → EachAccepted (fun _ write => write.PutsNumbers) addition.writes →
    GivesBack addition.after addition.last

/-! ### The addition -/

theorem acceptsLine_written {database : Database} {line : Line}
    (fresh : ∀ row ∈ database.lines, row.id ≠ .text line.id) :
    database.acceptsLine (.written line) = true := by
  have filled : (LineRow.written line).isFilled = true := by
    obtain ⟨id, shipmentId, item, content⟩ := line
    cases content <;> rfl
  rw [acceptsLine, filled, Bool.true_and, List.all_eq_true]
  intro row member
  rw [LineRow.id_written, Cell.agrees_text, decide_eq_false (fresh row member)]
  rfl

theorem hasShipmentOf_written (database : Database) (line : Line) :
    database.hasShipmentOf (.written line) = true ↔
      ∃ row ∈ database.shipments, row.id = .text line.shipmentId := by
  simp [hasShipmentOf, LineRow.shipmentId_written]

namespace Addition

variable {addition : Addition}

theorem sound_before : addition.before.Sound := sound_writeAll addition.early

theorem sound_after : addition.after.Sound := sound_writeAll addition.writes

/-- Counts change neither the names of the line nor whether it is stock. -/
theorem last_eq : addition.last.id = addition.line.id ∧
    addition.last.shipmentId = addition.line.shipmentId ∧
    addition.last.isService = addition.line.isService :=
  addition.line.recount_eq _

theorem ran_of_unknown (unknown : ¬addition.Known) :
    ∃ fault, addition.ran = (addition.before, .error fault) := by
  have orphan := mt (hasShipmentOf_written addition.before addition.line).mp unknown
  rw [ran, addLine_eq sound_before.isOpen]
  exact ⟨_, if_neg fun accepted => orphan (Bool.and_eq_true_iff.mp accepted).2⟩

theorem ran_of_proper (proper : addition.Proper) :
    addition.ran = (addition.before.withLine (.written addition.line), .ok addition.line) := by
  rw [ran, addLine_eq sound_before.isOpen]
  exact if_pos (Bool.and_eq_true_iff.mpr ⟨acceptsLine_written proper.fresh,
    (hasShipmentOf_written ..).mpr proper.known⟩)

/-- The line as it is in the end is left of the whole run. -/
theorem last_mem_left (proper : addition.Proper) :
    addition.last ∈ lineAccount.left (empty.history addition.writes) := by
  have event : addition.before.event? addition.write = some (.addedLine addition.line) := by
    show addition.ran.2.toOption.map Event.addedLine = _
    rw [ran_of_proper proper]
    rfl
  have history : empty.history addition.writes =
      empty.history addition.early ++ .addedLine addition.line :: addition.events := by
    rw [writes, history_append]
    show _ ++ ((addition.before.event? addition.write).toList ++ addition.events) = _
    rw [event]
    rfl
  rw [history]
  exact lineAccount.mem_left rfl (fate?_of_spared proper.spared) _

theorem numeric_last (proper : addition.Proper) : addition.last.content.IsNumeric :=
  Line.isNumeric_recount _ _ proper.numeric proper.counted

/-- The row of the line as it is in the end. -/
theorem written_last_mem (proper : addition.Proper) :
    LineRow.written addition.last ∈ addition.after.lines ∧
      (LineRow.written addition.last).id = .text addition.line.id := by
  constructor
  · rw [after, lines_writeAll]
    exact List.mem_map_of_mem (last_mem_left proper)
  · rw [LineRow.id_written, last_eq.1]

theorem lineById_after (proper : addition.Proper) :
    addition.after.lineById addition.line.id = .ok (some addition.last.kept) := by
  obtain ⟨member, named⟩ := written_last_mem proper
  exact (sound_after.lineById_eq_ok ..).mpr
    ⟨_, member, named, LineRow.read_written (numeric_last proper)⟩

theorem updatePacks_after (proper : addition.Proper) (stock : addition.line.isService = false)
    (packs : Binary64) : (addition.after.updatePacks [(addition.line.id, packs)]).2 = .ok 1 := by
  have can : addition.after.CanSetPacks (addition.line.id, packs) := by
    have found :=
      (find?_eq_some_iff LineRow.id sound_after.lineIds _ _).mpr (written_last_mem proper)
    have sameKind : addition.last.isService = false := last_eq.2.2.trans stock
    rw [CanSetPacks, lineRow?, found, Option.any_some, isStockRow_of_kind (LineRow.kind_written _)]
    simpa [Line.isService] using sameKind
  rw [Database.updatePacks_eq_ok sound_after.isOpen (List.forall_mem_singleton.mpr can)]
  rfl

/-- The lines of a shipment are listed just when none of them holds NaN. -/
theorem givesBack_iff (proper : addition.Proper) :
    GivesBack addition.after addition.last ↔
      ∀ other ∈ lineAccount.left (empty.history addition.writes),
        other.shipmentId = addition.line.shipmentId → other.content.IsNumeric := by
  rw [GivesBack, last_eq.1, last_eq.2.1]
  constructor
  · rintro ⟨kept, lines, -, -, listed, -⟩ other left mine
    rw [linesOf, listing_eq_ok _ sound_after.isOpen, after, lineRowsOf_writeAll] at listed
    refine (LineRow.readable_written other).mp (reads_of_readAll listed _ ?_)
    exact List.mem_map_of_mem (List.mem_filter.mpr ⟨left, decide_eq_true mine⟩)
  · intro numeric
    have listed := linesOf_of_numeric numeric
    refine ⟨addition.last.kept, _, lineById_after proper, Line.kept_same (numeric_last proper),
      listed, ?_, sound_after.nodup_linesOf listed⟩
    exact List.mem_map_of_mem (List.mem_filter.mpr
      ⟨last_mem_left proper, decide_eq_true last_eq.2.1⟩)

end Addition

/-- Whatever line is added, and whatever is written before and after. -/
theorem settled_addition (addition : Addition) : addition.Settled where
  unknown := Addition.ran_of_unknown
  answered proper := congrArg Prod.snd (Addition.ran_of_proper proper)
  found proper := ⟨_, Addition.lineById_after proper,
    Line.kept_same (Addition.numeric_last proper)⟩
  counts := Addition.updatePacks_after
  givesBack := Addition.givesBack_iff
  numbers proper numbers := by
    refine (Addition.givesBack_iff proper).mpr fun other left _ => ?_
    exact (allGood_history numbers).isNumeric other left

/-! ### A line that is counted again, and one beside NaN -/

namespace Delivery

def opening : List Write := [.createShipment "a" .epoch .inbound "Clinic"]

def line : Line :=
  ⟨"b", "a", ⟨"c", "C", "Gauze"⟩, .stockOut "" ⟨some "", some .epoch, 4294967295, .zero⟩ .zero⟩

/-- Other lines come and go, the shipment is verified, and the line is counted twice. -/
def recounted : Addition where
  early := opening
  line := line
  later :=
    [.addLine "d" "a" ⟨"c", "C", "Gauze"⟩ (.service .zero none),
      .updatePacks [("b", ⟨0x7ff8000000000000⟩), ("b", ⟨0x4014000000000000⟩)],
      .deleteLines ["d"], .setShipmentStatus "a" .verified, .deleteLines ["b"],
      .updatePacks [("b", ⟨0x4000000000000000⟩)], .deleteShipments ["a"]]

theorem proper_recounted : recounted.Proper where
  known := by decide +kernel
  fresh := by decide +kernel
  numeric := ⟨by decide, by decide⟩
  counted packs last := by
    have counts : lastCount? (recounted.events.flatMap Event.counts) recounted.line.id =
        some ⟨0x4000000000000000⟩ := by decide +kernel
    rw [counts] at last
    cases last
    decide
  spared := by decide +kernel

/-- The line is given back with its last count, though it was NaN for a while, and neither the
line nor its shipment could be deleted in the end. -/
theorem settled_recounted :
    recounted.last = line.withPacks ⟨0x4000000000000000⟩ ∧
      GivesBack recounted.after recounted.last := by
  refine ⟨by decide +kernel, ((settled_addition recounted).givesBack proper_recounted).mpr ?_⟩
  have left : lineAccount.left (empty.history recounted.writes) =
      [line.withPacks ⟨0x4000000000000000⟩] := by decide +kernel
  rw [left]
  exact List.forall_mem_singleton.mpr fun _ => ⟨by decide, by decide⟩

/-- Another line of the shipment is added, with NaN packs. -/
def besideNaN : Addition where
  early := opening
  line := line
  later := [.addLine "d" "a" ⟨"c", "C", "Gauze"⟩
    (.stockIn ⟨none, none, 1, ⟨0x7ff8000000000000⟩⟩ .zero)]

/-- The line that was added first is not listed any more. -/
theorem not_givesBack_besideNaN :
    besideNaN.Proper ∧ ¬GivesBack besideNaN.after besideNaN.last := by
  have uncounted : lastCount? (besideNaN.events.flatMap Event.counts) besideNaN.line.id = none := by
    decide +kernel
  have proper : besideNaN.Proper := {
    known := by decide +kernel
    fresh := by decide +kernel
    numeric := ⟨by decide, by decide⟩
    counted := by
      intro packs last
      rw [uncounted] at last
      cases last
    spared := by decide +kernel }
  refine ⟨proper, ?_⟩
  rintro ⟨kept, lines, -, -, listed, -⟩
  have refused : (besideNaN.after.linesOf besideNaN.last.shipmentId).toOption = none := by
    decide +kernel
  rw [listed] at refused
  cases refused

end Delivery

end Database

end Depot
