import Depot.Proofs.Database.Written

/-!
Contract: what is left of a history, and that the tables hold just that.

A record is left when an event made it and no later event ended it; meanwhile later events
may have changed it. What is left of a history is listed in the order in which it was made.
The table of lines holds the written form of what is left, whatever the run. The other two
tables do so as long as numbers are numbers of 64 bits, for which see
`Depot.Proofs.Database.Numbers`.

Owns: accounts of events, and the tables as written forms of what is left.
Does not own: the numbers of shipments and requisitions.
-/

namespace Depot.Database

/-! ### Accounts -/

/-- What events mean for the records of one table: which of them make a record, and what
becomes of a record that is there. -/
structure Account (ρ : Type) where
  made? : Event → Option ρ
  next? : Event → ρ → Option ρ

namespace Account

variable {ρ : Type} (account : Account ρ)

/-- What becomes of a record in the course of events. -/
def fate? : List Event → ρ → Option ρ
  | [], record => some record
  | event :: events, record => (account.next? event record).bind (fate? events)

/-- The records that were made and not ended later, as they are in the end. -/
def left : List Event → List ρ
  | [] => []
  | event :: events => ((account.made? event).bind (account.fate? events)).toList ++ left events

/-- The number of records that were ever made. -/
def count (events : List Event) : Nat := (events.filterMap account.made?).length

theorem fate?_append_singleton (event : Event) : ∀ (events : List Event) (record : ρ),
    account.fate? (events ++ [event]) record =
      (account.fate? events record).bind (account.next? event)
  | [], record => by
      show (account.next? event record).bind some = account.next? event record
      exact Option.bind_fun_some _
  | first :: events, record => by
      show (account.next? first record).bind (account.fate? (events ++ [event])) = _
      rw [fate?, Option.bind_assoc]
      congr 1
      funext next
      exact fate?_append_singleton event events next

/-- One more event ends or changes what was left, and may make one more record. -/
theorem left_append_singleton (event : Event) : ∀ events : List Event,
    account.left (events ++ [event]) =
      (account.left events).filterMap (account.next? event) ++ (account.made? event).toList
  | [] => by
      show ((account.made? event).bind some).toList ++ [] = [] ++ (account.made? event).toList
      rw [Option.bind_fun_some, List.append_nil, List.nil_append]
  | first :: events => by
      have rest := left_append_singleton event events
      show ((account.made? first).bind (account.fate? (events ++ [event]))).toList ++
        account.left (events ++ [event]) = _
      rw [rest, left, List.filterMap_append, List.append_assoc]
      congr 1
      cases account.made? first with
      | none => rfl
      | some record =>
          rw [Option.bind_some, Option.bind_some, fate?_append_singleton]
          cases account.fate? events record with
          | none => rfl
          | some last =>
              rw [Option.bind_some, Option.toList_some, List.filterMap_cons]
              cases account.next? event last <;> rfl

/-- An event that is nothing to the table leaves it as it was. -/
theorem left_append_quiet {event? : Option Event}
    (quiet : ∀ event ∈ event?, account.made? event = none ∧
      ∀ record, account.next? event record = some record) (events : List Event) :
    account.left (events ++ event?.toList) = account.left events := by
  cases event? with
  | none => rw [Option.toList_none, List.append_nil]
  | some event =>
      obtain ⟨nothing, stays⟩ := quiet event rfl
      rw [Option.toList_some, left_append_singleton, nothing, Option.toList_none, List.append_nil,
        funext stays]
      exact List.filterMap_some

theorem left_append_made {event : Event} {record : ρ} (made : account.made? event = some record)
    (stays : ∀ record, account.next? event record = some record) (events : List Event) :
    account.left (events ++ [event]) = account.left events ++ [record] := by
  rw [left_append_singleton, made, funext stays]
  exact congrArg (· ++ [record]) List.filterMap_some

theorem left_append_changed {event : Event} (nothing : account.made? event = none)
    {change : ρ → ρ} (changes : ∀ record, account.next? event record = some (change record))
    (events : List Event) :
    account.left (events ++ [event]) = (account.left events).map change := by
  rw [left_append_singleton, nothing, funext changes, Option.toList_none, List.append_nil]
  exact congrFun List.filterMap_eq_map' _

theorem left_append_ended {event : Event} (nothing : account.made? event = none)
    {ends : ρ → Bool}
    (next : ∀ record, account.next? event record = if ends record then none else some record)
    (events : List Event) :
    account.left (events ++ [event]) = (account.left events).filter fun record =>
      !ends record := by
  have kept : account.next? event = Option.guard fun record => !ends record := by
    funext record
    rw [next]
    cases ended : ends record <;> simp [Option.guard, ended]
  rw [left_append_singleton, nothing, kept, Option.toList_none, List.append_nil,
    List.filterMap_eq_filter]

end Account

/-- Shipments: status and hold may be set, and deletions end them. -/
def shipmentAccount : Account Shipment where
  made?
    | .createdShipment shipment => some shipment
    | _ => none
  next? event shipment := match event with
    | .setShipmentStatus id status =>
        some (if shipment.id = id then { shipment with status } else shipment)
    | .setShipmentHold id onHold =>
        some (if shipment.id = id then { shipment with onHold } else shipment)
    | .deletedShipments ids => if ids.contains shipment.id then none else some shipment
    | _ => some shipment

/-- Lines: pack counts may be set, and deletions end them, of lines or of their shipment. -/
def lineAccount : Account Line where
  made?
    | .addedLine line => some line
    | _ => none
  next? event line := match event with
    | .updatedPacks changes => some (line.recount changes)
    | .deletedLines ids => if ids.contains line.id then none else some line
    | .deletedShipments ids => if ids.contains line.shipmentId then none else some line
    | _ => some line

/-- Requisitions: the status may be set, and deletions end them. -/
def requisitionAccount : Account Requisition where
  made?
    | .createdRequisition requisition => some requisition
    | _ => none
  next? event requisition := match event with
    | .setRequisitionStatus id status =>
        some (if requisition.id = id then { requisition with status } else requisition)
    | .deletedRequisitions ids =>
        if ids.contains requisition.id then none else some requisition
    | _ => some requisition

/-! ### The table of lines -/

/-- Rows that are dropped by a text in one column are dropped with their records. -/
theorem map_filter_isOneOf {ρ α : Type} (write : ρ → α) (key : α → Cell) (name : ρ → String)
    (named : ∀ record, key (write record) = .text (name record)) (names : List String)
    (records : List ρ) :
    ((records.map write).filter fun row => !(key row).isOneOf names) =
      (records.filter fun record => !names.contains (name record)).map write := by
  rw [List.filter_map]
  congr 1
  refine List.filter_congr ?_
  intro record member
  rw [Function.comp_apply, named, Cell.isOneOf_text]

/-- Rows that are changed under an id are changed with their records. -/
theorem map_change {ρ α : Type} (write : ρ → α) (changeRow : α → α) (change : ρ → ρ)
    (alike : ∀ record, changeRow (write record) = write (change record)) (records : List ρ) :
    (records.map write).map changeRow = (records.map change).map write := by
  rw [List.map_map, List.map_map]
  exact List.map_congr_left fun record member => alike record

theorem Effect.lines_eq {database after : Database} {write : Write} {event? : Option Event}
    (effect : Effect database write event? after) {events : List Event}
    (table : database.lines = (lineAccount.left events).map LineRow.written) :
    after.lines = (lineAccount.left (events ++ event?.toList)).map LineRow.written := by
  have quiet : ∀ {event? : Option Event}, (∀ event ∈ event?, lineAccount.made? event = none ∧
      ∀ line, lineAccount.next? event line = some line) →
      database.lines = (lineAccount.left (events ++ event?.toList)).map LineRow.written := by
    intro event? quiet
    rw [lineAccount.left_append_quiet quiet, table]
  cases effect with
  | refused write => exact quiet (by rintro event ⟨⟩)
  | createShipment id now direction party accepted =>
      refine quiet ?_
      intro event is
      obtain ⟨shipment, -, rfl⟩ := Option.map_eq_some_iff.mp is
      exact ⟨rfl, fun line => rfl⟩
  | setShipmentStatus id status => exact quiet (by rintro event ⟨⟩; exact ⟨rfl, fun line => rfl⟩)
  | setShipmentHold id onHold => exact quiet (by rintro event ⟨⟩; exact ⟨rfl, fun line => rfl⟩)
  | deleteShipments ids =>
      show (database.lines.filter fun row => !row.shipmentId.isOneOf ids) = _
      rw [table, map_filter_isOneOf LineRow.written LineRow.shipmentId Line.shipmentId
        LineRow.shipmentId_written]
      exact congrArg _ (lineAccount.left_append_ended rfl (fun line => rfl) events).symm
  | addLine id shipmentId item content accepted owned =>
      show database.lines ++ [LineRow.written ⟨id, shipmentId, item, content⟩] = _
      rw [table, Option.toList_some, lineAccount.left_append_made rfl (fun line => rfl),
        List.map_append, List.map_singleton]
  | deleteLines ids =>
      show (database.lines.filter fun row => !row.id.isOneOf ids) = _
      rw [table, map_filter_isOneOf LineRow.written LineRow.id Line.id LineRow.id_written]
      exact congrArg _ (lineAccount.left_append_ended rfl (fun line => rfl) events).symm
  | updatePacks changes =>
      show (database.lines.map fun row => changes.foldl LineRow.repack row) = _
      rw [table, map_change LineRow.written _ (Line.recount · changes) fun line =>
        LineRow.foldl_repack_written line changes]
      exact congrArg _ (lineAccount.left_append_changed rfl (fun line => rfl) events).symm
  | createRequisition id now party accepted =>
      refine quiet ?_
      intro event is
      obtain ⟨requisition, -, rfl⟩ := Option.map_eq_some_iff.mp is
      exact ⟨rfl, fun line => rfl⟩
  | setRequisitionStatus id status =>
      exact quiet (by rintro event ⟨⟩; exact ⟨rfl, fun line => rfl⟩)
  | deleteRequisitions ids => exact quiet (by rintro event ⟨⟩; exact ⟨rfl, fun line => rfl⟩)

theorem history_append_singleton (database : Database) (writes : List Write) (write : Write) :
    database.history (writes ++ [write]) =
      database.history writes ++ ((database.writeAll writes).event? write).toList := by
  rw [history_append]
  exact congrArg _ (List.append_nil _)

theorem writeAll_append_singleton (database : Database) (writes : List Write) (write : Write) :
    database.writeAll (writes ++ [write]) = (database.writeAll writes).write write :=
  database.writeAll_append writes [write]

/-- What is proved of the start, and of every further write, holds of every run. -/
theorem run_induction {motive : List Write → Prop} (start : motive [])
    (step : ∀ writes write, motive writes →
      Effect (empty.writeAll writes) write ((empty.writeAll writes).event? write)
        (empty.writeAll (writes ++ [write])) → motive (writes ++ [write]))
    (writes : List Write) : motive writes := by
  induction writes using List.reverseRecOn with
  | nil => exact start
  | append_singleton writes write inductionHypothesis =>
      refine step writes write inductionHypothesis ?_
      rw [writeAll_append_singleton]
      exact effect_write (sound_writeAll writes).isOpen write

/-- After every run the table of lines holds what is left of them. -/
theorem lines_writeAll (writes : List Write) :
    (empty.writeAll writes).lines =
      (lineAccount.left (empty.history writes)).map LineRow.written := by
  induction writes using run_induction with
  | start => rfl
  | step writes write inductionHypothesis effect =>
      rw [history_append_singleton]
      exact effect.lines_eq inductionHypothesis

end Depot.Database
