import Depot.Proofs.Database.History

/-!
Contract: the numbers of shipments and of requisitions.

A new record takes the number after the greatest one that is left of its series, so that
numbers increase in the order of creation although a number may be given again. No number
exceeds the count of records that were ever made; while that count is below the range of 64
bits, numbers are integers, and the tables hold the written forms of what is left.

Owns: numbered accounts, the next number, and the tables of shipments and requisitions.
Does not own: the lists by number (`Depot.Proofs.Database.Orderly`).
-/

namespace Depot.Database

/-- The greatest of some numbers, or zero. -/
def greatestOf (numbers : List Int) : Int := numbers.foldr max 0

theorem greatestOf_nonneg : ∀ numbers : List Int, 0 ≤ greatestOf numbers
  | [] => Int.le_refl 0
  | number :: numbers => (greatestOf_nonneg numbers).trans (Int.le_max_right number _)

theorem le_greatestOf : ∀ {numbers : List Int}, ∀ number ∈ numbers, number ≤ greatestOf numbers
  | first :: numbers, number, member => by
      show number ≤ max first (greatestOf numbers)
      rcases List.mem_cons.mp member with rfl | later
      · exact Int.le_max_left number _
      · exact (le_greatestOf number later).trans (Int.le_max_right first _)

theorem greatestOf_le {bound : Int} (nonneg : 0 ≤ bound) : ∀ {numbers : List Int},
    (∀ number ∈ numbers, number ≤ bound) → greatestOf numbers ≤ bound
  | [], _ => nonneg
  | first :: _, within =>
      Int.max_le.mpr ⟨within first List.mem_cons_self,
        greatestOf_le nonneg fun number member => within number (List.mem_cons_of_mem _ member)⟩

/-! ### Cells -/

namespace Cell

theorem greatest_cons_integer {number : Int} (positive : 1 ≤ number) : ∀ {numbers : List Int},
    (∀ other ∈ numbers, 1 ≤ other) →
    greatest ((number :: numbers).map .integer) = .integer (greatestOf (number :: numbers))
  | [], _ => by
      have only : max number 0 = number := Int.max_eq_left (by omega)
      show Cell.integer number = .integer (max number 0)
      rw [only]
  | other :: numbers, rest => by
      have others := greatest_cons_integer (rest other List.mem_cons_self) fun later member =>
        rest later (List.mem_cons_of_mem _ member)
      show (if (Cell.integer number).order (greatest ((other :: numbers).map .integer)) = .gt
        then Cell.integer number else greatest ((other :: numbers).map .integer)) =
          .integer (max number (greatestOf (other :: numbers)))
      rw [others]
      by_cases above : greatestOf (other :: numbers) < number
      · have order : (Cell.integer number).order (.integer (greatestOf (other :: numbers))) =
            .gt := Int.compare_eq_gt.mpr above
        rw [if_pos order, Int.max_eq_left (Int.le_of_lt above)]
      · have order : (Cell.integer number).order (.integer (greatestOf (other :: numbers))) ≠
            .gt := fun greater => above (Int.compare_eq_gt.mp greater)
        rw [if_neg order, Int.max_eq_right (Int.not_lt.mp above)]

/-- After positive integers comes the one after the greatest. -/
theorem successor_greatest {numbers : List Int} (positive : ∀ number ∈ numbers, 1 ≤ number)
    {bound : Nat} (within : greatestOf numbers ≤ bound) (room : bound + 1 < Nat.pow 2 63) :
    (greatest (numbers.map .integer)).successor = .integer (greatestOf numbers + 1) := by
  cases numbers with
  | nil => rfl
  | cons number numbers =>
      have fits : isInt64 (greatestOf (number :: numbers) + 1) = true := by
        have nonneg := greatestOf_nonneg (number :: numbers)
        have power : Int.pow 2 63 = (Nat.pow 2 63 : Nat) := rfl
        simp only [isInt64, power, Bool.and_eq_true, decide_eq_true_eq]
        omega
      rw [greatest_cons_integer (positive number List.mem_cons_self) fun other member =>
        positive other (List.mem_cons_of_mem _ member)]
      show (if isInt64 (greatestOf (number :: numbers) + 1) then _ else _) = _
      rw [if_pos fits]

end Cell

/-! ### Numbered accounts -/

/-- The greatest number that is left of a series. -/
def Account.greatest {ρ κ : Type} [DecidableEq κ] (account : Account ρ) (number : ρ → Int)
    (series : ρ → κ) (events : List Event) (place : κ) : Int :=
  greatestOf (((account.left events).filter fun record => series record = place).map number)

/-- All records may be one series. -/
theorem Account.greatest_single {ρ : Type} (account : Account ρ) (number : ρ → Int)
    (events : List Event) :
    account.greatest number (fun _ => ()) events () =
      greatestOf ((account.left events).map number) := by
  have all : ((account.left events).filter fun _ => decide (() = ())) = account.left events :=
    List.filter_eq_self.mpr fun _ _ => rfl
  rw [greatest, all]

/-- Numbers begin at one, are never above the count of what was made, and increase within a
series in the order of creation. -/
structure Numbered {ρ κ : Type} (account : Account ρ) (number : ρ → Int) (series : ρ → κ)
    (events : List Event) : Prop where
  positive : ∀ record ∈ account.left events, 1 ≤ number record
  counted : ∀ record ∈ account.left events, number record ≤ account.count events
  increasing : (account.left events).Pairwise fun earlier later =>
    series earlier = series later → number earlier < number later

namespace Numbered

variable {ρ κ : Type} [DecidableEq κ] {account : Account ρ} {number : ρ → Int} {series : ρ → κ}
  {events : List Event}

theorem le_greatest {record : ρ} (member : record ∈ account.left events) :
    number record ≤ account.greatest number series events (series record) := by
  refine le_greatestOf _ (List.mem_map_of_mem (List.mem_filter.mpr ⟨member, ?_⟩))
  exact decide_eq_true rfl

theorem greatest_le_count (numbered : Numbered account number series events) (place : κ) :
    account.greatest number series events place ≤ account.count events := by
  refine greatestOf_le (Int.natCast_nonneg _) ?_
  intro other member
  obtain ⟨record, inside, rfl⟩ := List.mem_map.mp member
  exact numbered.counted record (List.mem_filter.mp inside).1

theorem step (numbered : Numbered account number series events) {event : Event}
    (keeps : ∀ record next, account.next? event record = some next →
      number next = number record ∧ series next = series record)
    (makes : ∀ record, account.made? event = some record →
      (∀ other, account.next? event other = some other) ∧
        number record = account.greatest number series events (series record) + 1) :
    Numbered account number series (events ++ [event]) := by
  have more : account.count events ≤ account.count (events ++ [event]) := by
    rw [Account.count, Account.count, List.filterMap_append, List.length_append]
    omega
  cases made : account.made? event with
  | none =>
      -- Records are ended or changed, and change neither number nor series.
      have left : account.left (events ++ [event]) =
          (account.left events).filterMap (account.next? event) := by
        rw [account.left_append_singleton, made, Option.toList_none, List.append_nil]
      have comes : ∀ record ∈ account.left (events ++ [event]),
          ∃ old ∈ account.left events, number record = number old := by
        intro record member
        rw [left] at member
        obtain ⟨old, inside, next⟩ := List.mem_filterMap.mp member
        exact ⟨old, inside, (keeps old record next).1⟩
      refine ⟨?_, ?_, ?_⟩
      · intro record member
        obtain ⟨old, inside, same⟩ := comes record member
        rw [same]
        exact numbered.positive old inside
      · intro record member
        obtain ⟨old, inside, same⟩ := comes record member
        have counted := numbered.counted old inside
        omega
      · rw [left, List.pairwise_filterMap]
        refine numbered.increasing.imp ?_
        intro earlier later increases first isFirst second isSecond same
        obtain ⟨numberFirst, seriesFirst⟩ := keeps earlier first isFirst
        obtain ⟨numberSecond, seriesSecond⟩ := keeps later second isSecond
        rw [numberFirst, numberSecond]
        exact increases (by rw [← seriesFirst, same, seriesSecond])
  | some record =>
      obtain ⟨stays, next⟩ := makes record made
      have left : account.left (events ++ [event]) = account.left events ++ [record] :=
        account.left_append_made made stays events
      have count : account.count (events ++ [event]) = account.count events + 1 := by
        rw [Account.count, Account.count, List.filterMap_append, List.length_append,
          List.filterMap_cons, made]
        rfl
      have bounded := numbered.greatest_le_count (series record)
      have nonneg : 0 ≤ account.greatest number series events (series record) :=
        greatestOf_nonneg _
      refine ⟨?_, ?_, ?_⟩
      · rw [left]
        refine forall_mem_append_singleton numbered.positive ?_
        omega
      · rw [left, count]
        refine forall_mem_append_singleton ?_ (by omega)
        intro old member
        have counted := numbered.counted old member
        omega
      · rw [left, List.pairwise_append]
        refine ⟨numbered.increasing, List.pairwise_singleton _ _, ?_⟩
        intro old member new single same
        rw [List.mem_singleton.mp single] at same ⊢
        have below : number old ≤ account.greatest number series events (series old) :=
          le_greatest member
        rw [same] at below
        omega

end Numbered

/-! ### Numbered tables -/

/-- A table holds the written form of what is left, and that is numbered. -/
structure Holds {ρ κ α : Type} (account : Account ρ) (writeRow : ρ → α) (number : ρ → Int)
    (series : ρ → κ) (rows : List α) (events : List Event) : Prop where
  table : rows = (account.left events).map writeRow
  numbers : Numbered account number series events

namespace Holds

variable {ρ κ α : Type} [DecidableEq κ] {account : Account ρ} {writeRow : ρ → α}
  {number : ρ → Int} {series : ρ → κ} {rows after : List α} {events : List Event}

/-- An event may be nothing to the table. -/
theorem passed (holds : Holds account writeRow number series rows events) {event : Event}
    (nothing : account.made? event = none)
    (stays : ∀ record, account.next? event record = some record) :
    Holds account writeRow number series rows (events ++ [event]) where
  table := by
    have same : account.left (events ++ [event]) = (account.left events).map id :=
      account.left_append_changed nothing stays events
    rw [same, List.map_id, holds.table]
  numbers := by
    refine holds.numbers.step ?_ ?_
    · intro old later isLater
      rw [stays old] at isLater
      cases isLater
      exact ⟨rfl, rfl⟩
    · intro record isRecord
      rw [nothing] at isRecord
      cases isRecord

/-- A record with the next number may be added. -/
theorem made (holds : Holds account writeRow number series rows events) {event : Event}
    {record : ρ} (made : account.made? event = some record)
    (stays : ∀ other, account.next? event other = some other)
    (next : number record = account.greatest number series events (series record) + 1) :
    Holds account writeRow number series (rows ++ [writeRow record]) (events ++ [event]) where
  table := by
    rw [account.left_append_made made stays, holds.table, List.map_append, List.map_singleton]
  numbers := by
    refine holds.numbers.step ?_ ?_
    · intro old later isLater
      rw [stays old] at isLater
      cases isLater
      exact ⟨rfl, rfl⟩
    · intro record isRecord
      rw [made] at isRecord
      cases isRecord
      exact ⟨stays, next⟩

/-- Rows may change in what neither numbers nor places them. -/
theorem changed (holds : Holds account writeRow number series rows events) {event : Event}
    (nothing : account.made? event = none) {change : ρ → ρ}
    (changes : ∀ record, account.next? event record = some (change record))
    {changeRow : α → α} (alike : ∀ record, changeRow (writeRow record) = writeRow (change record))
    (keeps : ∀ record, number (change record) = number record ∧
      series (change record) = series record) :
    Holds account writeRow number series (rows.map changeRow) (events ++ [event]) where
  table := by
    rw [account.left_append_changed nothing changes, holds.table,
      map_change writeRow changeRow change alike]
  numbers := by
    refine holds.numbers.step ?_ ?_
    · intro old later isLater
      rw [changes old] at isLater
      cases isLater
      exact keeps old
    · intro record isRecord
      rw [nothing] at isRecord
      cases isRecord

/-- Rows may be dropped. -/
theorem ended (holds : Holds account writeRow number series rows events) {event : Event}
    (nothing : account.made? event = none) {names : List String} {name : ρ → String}
    (next : ∀ record, account.next? event record =
      if names.contains (name record) then none else some record)
    {key : α → Cell} (named : ∀ record, key (writeRow record) = .text (name record)) :
    Holds account writeRow number series (rows.filter fun row => !(key row).isOneOf names)
      (events ++ [event]) where
  table := by
    rw [account.left_append_ended nothing next, holds.table,
      map_filter_isOneOf writeRow key name named]
  numbers := by
    refine holds.numbers.step ?_ ?_
    · intro old later isLater
      rw [next old] at isLater
      split at isLater
      next => cases isLater
      next =>
        cases isLater
        exact ⟨rfl, rfl⟩
    · intro record isRecord
      rw [nothing] at isRecord
      cases isRecord

end Holds

/-! ### The tables of shipments and requisitions -/

/-- The tables of shipments and requisitions hold what is left, with its numbers. -/
structure Kept (database : Database) (events : List Event) : Prop where
  shipments : Holds shipmentAccount ShipmentRow.ofShipment
    (fun shipment => shipment.number.toInt) Shipment.direction database.shipments events
  requisitions : Holds requisitionAccount RequisitionRow.ofRequisition
    (fun requisition => requisition.number.toInt) (fun _ => ()) database.requisitions events

/-- One more record of either kind can be numbered. -/
structure HasRoom (events : List Event) : Prop where
  shipments : shipmentAccount.count events + 1 < Nat.pow 2 63
  requisitions : requisitionAccount.count events + 1 < Nat.pow 2 63

/-- The shipment that is created after some events. -/
def newShipment (events : List Event) (id : String) (now : Calendar.Instant)
    (direction : Direction) (party : String) : Shipment where
  id
  number := .ofInt (shipmentAccount.greatest (fun shipment => shipment.number.toInt)
    Shipment.direction events direction + 1)
  direction
  status := .new
  party
  onHold := false
  createdAt := now

/-- The requisition that is created after some events. -/
def newRequisition (events : List Event) (id : String) (now : Calendar.Instant)
    (party : String) : Requisition where
  id
  number := .ofInt (requisitionAccount.greatest (fun requisition => requisition.number.toInt)
    (fun _ => ()) events () + 1)
  status := .draft
  party
  createdAt := now

theorem toInt_ofInt_next {greatest : Int} {bound : Nat} (nonneg : 0 ≤ greatest)
    (within : greatest ≤ bound) (room : bound + 1 < Nat.pow 2 63) :
    (Int64.ofInt (greatest + 1)).toInt = greatest + 1 := by
  have power : Nat.pow 2 63 = 9223372036854775808 := rfl
  rw [power] at room
  exact Int64.toInt_ofInt_of_le (by omega) (by omega)

theorem word_eq_iff (left right : Direction) :
    Cell.text left.word = .text right.word ↔ left = right := by
  cases left <;> cases right <;> decide

namespace Kept

variable {database : Database} {events : List Event}

theorem toInt_newShipment (kept : Kept database events) (room : HasRoom events) (id : String)
    (now : Calendar.Instant) (direction : Direction) (party : String) :
    (newShipment events id now direction party).number.toInt =
      shipmentAccount.greatest (fun shipment => shipment.number.toInt) Shipment.direction events
        direction + 1 :=
  toInt_ofInt_next (greatestOf_nonneg _) (kept.shipments.numbers.greatest_le_count direction)
    room.shipments

theorem toInt_newRequisition (kept : Kept database events) (room : HasRoom events) (id : String)
    (now : Calendar.Instant) (party : String) :
    (newRequisition events id now party).number.toInt =
      requisitionAccount.greatest (fun requisition => requisition.number.toInt) (fun _ => ())
        events () + 1 :=
  toInt_ofInt_next (greatestOf_nonneg _) (kept.requisitions.numbers.greatest_le_count ())
    room.requisitions

theorem shipmentRowsOf (kept : Kept database events) (direction : Direction) :
    database.shipmentRowsOf direction =
      ((shipmentAccount.left events).filter fun shipment => shipment.direction = direction).map
        ShipmentRow.ofShipment := by
  rw [Database.shipmentRowsOf, kept.shipments.table, List.filter_map]
  congr 1
  refine List.filter_congr ?_
  intro shipment member
  exact decide_eq_decide.mpr (word_eq_iff shipment.direction direction)

/-- The row of a new shipment is the written form of the shipment that is created. -/
theorem newShipmentRow_eq (kept : Kept database events) (room : HasRoom events) (id : String)
    (now : Calendar.Instant) (direction : Direction) (party : String) :
    database.newShipmentRow id now direction party =
      .ofShipment (newShipment events id now direction party) := by
  have numbers : (database.shipmentRowsOf direction).map ShipmentRow.number =
      (((shipmentAccount.left events).filter fun shipment => shipment.direction = direction).map
        fun shipment => shipment.number.toInt).map Cell.integer := by
    rw [kept.shipmentRowsOf, List.map_map, List.map_map]
    rfl
  have next : database.nextShipmentNumber direction =
      .integer (newShipment events id now direction party).number.toInt := by
    rw [kept.toInt_newShipment room, nextShipmentNumber, numbers]
    refine Cell.successor_greatest ?_ (kept.shipments.numbers.greatest_le_count direction)
      room.shipments
    intro number member
    obtain ⟨shipment, inside, rfl⟩ := List.mem_map.mp member
    exact kept.shipments.numbers.positive shipment (List.mem_filter.mp inside).1
  rw [newShipmentRow, next]
  rfl

theorem newRequisitionRow_eq (kept : Kept database events) (room : HasRoom events) (id : String)
    (now : Calendar.Instant) (party : String) :
    database.newRequisitionRow id now party =
      .ofRequisition (newRequisition events id now party) := by
  have numbers : database.requisitions.map RequisitionRow.number =
      ((requisitionAccount.left events).map fun requisition =>
        requisition.number.toInt).map Cell.integer := by
    rw [kept.requisitions.table, List.map_map, List.map_map]
    rfl
  have next : database.nextRequisitionNumber =
      .integer (newRequisition events id now party).number.toInt := by
    rw [kept.toInt_newRequisition room, nextRequisitionNumber, numbers, Account.greatest_single]
    have bounded := kept.requisitions.numbers.greatest_le_count ()
    rw [Account.greatest_single] at bounded
    refine Cell.successor_greatest ?_ bounded room.requisitions
    intro number member
    obtain ⟨requisition, inside, rfl⟩ := List.mem_map.mp member
    exact kept.requisitions.numbers.positive requisition inside
  rw [newRequisitionRow, next]
  rfl

/-- A shipment that was put into the table is read back. -/
theorem shipmentById_withShipment (kept : Kept database events) (room : HasRoom events)
    {id : String} {now : Calendar.Instant} {direction : Direction} {party : String}
    (sound : (database.withShipment
      (database.newShipmentRow id now direction party)).Sound) :
    (database.withShipment (database.newShipmentRow id now direction party)).shipmentById id =
      .ok (some (newShipment events id now direction party)) := by
  refine (sound.shipmentById_eq_ok ..).mpr
    ⟨database.newShipmentRow id now direction party, ?_, rfl, ?_⟩
  · exact List.mem_append_right _ (List.mem_singleton_self _)
  · rw [kept.newShipmentRow_eq room]
    exact ShipmentRow.read_ofShipment _

theorem requisitionById_withRequisition (kept : Kept database events) (room : HasRoom events)
    {id : String} {now : Calendar.Instant} {party : String}
    (sound : (database.withRequisition (database.newRequisitionRow id now party)).Sound) :
    (database.withRequisition (database.newRequisitionRow id now party)).requisitionById id =
      .ok (some (newRequisition events id now party)) := by
  refine (sound.requisitionById_eq_ok ..).mpr
    ⟨database.newRequisitionRow id now party, ?_, rfl, ?_⟩
  · exact List.mem_append_right _ (List.mem_singleton_self _)
  · rw [kept.newRequisitionRow_eq room]
    exact RequisitionRow.read_ofRequisition _

end Kept

theorem kept_empty : Kept empty [] where
  shipments := ⟨rfl, List.forall_mem_nil _, List.forall_mem_nil _, List.Pairwise.nil⟩
  requisitions := ⟨rfl, List.forall_mem_nil _, List.forall_mem_nil _, List.Pairwise.nil⟩

/-- Whether the write makes a record with a number. -/
def Write.isNumbered : Write → Bool
  | .createShipment .. | .createRequisition .. => true
  | .setShipmentStatus .. | .setShipmentHold .. | .deleteShipments .. | .addLine ..
  | .deleteLines .. | .updatePacks .. | .setRequisitionStatus .. | .deleteRequisitions .. => false

/-- While there is room for its number, every record is kept. -/
theorem Effect.kept {database after : Database} {write : Write} {event? : Option Event}
    (effect : Effect database write event? after) {events : List Event}
    (kept : Kept database events) (room : write.isNumbered = true → HasRoom events)
    (sound : after.Sound) : Kept after (events ++ event?.toList) := by
  cases effect with
  | refused write =>
      rw [Option.toList_none, List.append_nil]
      exact kept
  | createShipment id now direction party accepted =>
      have room := room rfl
      rw [kept.shipmentById_withShipment room sound]
      refine ⟨?_, kept.requisitions.passed rfl fun record => rfl⟩
      rw [kept.newShipmentRow_eq room]
      have next := kept.toInt_newShipment room id now direction party
      exact kept.shipments.made rfl (fun record => rfl) next
  | setShipmentStatus id status =>
      refine ⟨?_, kept.requisitions.passed rfl fun record => rfl⟩
      refine kept.shipments.changed rfl (fun record => rfl) ?_ ?_
      · intro shipment
        simp only [ShipmentRow.ofShipment, Cell.text.injEq]
        split <;> rfl
      · intro shipment
        split <;> exact ⟨rfl, rfl⟩
  | setShipmentHold id onHold =>
      refine ⟨?_, kept.requisitions.passed rfl fun record => rfl⟩
      refine kept.shipments.changed rfl (fun record => rfl) ?_ ?_
      · intro shipment
        simp only [ShipmentRow.ofShipment, Cell.text.injEq]
        split <;> rfl
      · intro shipment
        split <;> exact ⟨rfl, rfl⟩
  | deleteShipments ids =>
      exact ⟨kept.shipments.ended rfl (fun record => rfl) fun record => rfl,
        kept.requisitions.passed rfl fun record => rfl⟩
  | addLine id shipmentId item content accepted owned =>
      exact ⟨kept.shipments.passed rfl fun record => rfl,
        kept.requisitions.passed rfl fun record => rfl⟩
  | deleteLines ids =>
      exact ⟨kept.shipments.passed rfl fun record => rfl,
        kept.requisitions.passed rfl fun record => rfl⟩
  | updatePacks changes =>
      exact ⟨kept.shipments.passed rfl fun record => rfl,
        kept.requisitions.passed rfl fun record => rfl⟩
  | createRequisition id now party accepted =>
      have room := room rfl
      rw [kept.requisitionById_withRequisition room sound]
      refine ⟨kept.shipments.passed rfl fun record => rfl, ?_⟩
      rw [kept.newRequisitionRow_eq room]
      have next := kept.toInt_newRequisition room id now party
      exact kept.requisitions.made rfl (fun record => rfl) next
  | setRequisitionStatus id status =>
      refine ⟨kept.shipments.passed rfl fun record => rfl, ?_⟩
      refine kept.requisitions.changed rfl (fun record => rfl) ?_ ?_
      · intro requisition
        simp only [RequisitionRow.ofRequisition, Cell.text.injEq]
        split <;> rfl
      · intro requisition
        split <;> exact ⟨rfl, rfl⟩
  | deleteRequisitions ids =>
      exact ⟨kept.shipments.passed rfl fun record => rfl,
        kept.requisitions.ended rfl (fun record => rfl) fun record => rfl⟩

/-! ### Runs -/

theorem Account.count_append {ρ : Type} (account : Account ρ) (early later : List Event) :
    account.count (early ++ later) = account.count early + account.count later := by
  rw [count, List.filterMap_append, List.length_append]
  rfl

/-- Only a write that is for it makes a record, and it makes one at most. -/
theorem Effect.count_le {database after : Database} {write : Write} {event? : Option Event}
    (effect : Effect database write event? after) :
    shipmentAccount.count event?.toList ≤ [write].countP Write.isNumbered ∧
      requisitionAccount.count event?.toList ≤ [write].countP Write.isNumbered := by
  have one : ∀ {ρ : Type} (account : Account ρ), account.count event?.toList ≤ 1 := by
    intro ρ account
    refine (List.length_filterMap_le _ _).trans ?_
    cases event? with
    | none => exact Nat.zero_le 1
    | some event => exact Nat.le_refl 1
  cases effect with
  | createShipment => exact ⟨one shipmentAccount, one requisitionAccount⟩
  | createRequisition => exact ⟨one shipmentAccount, one requisitionAccount⟩
  | refused | setShipmentStatus | setShipmentHold | deleteShipments | addLine | deleteLines
  | updatePacks | setRequisitionStatus | deleteRequisitions =>
      exact ⟨Nat.zero_le _, Nat.zero_le _⟩

theorem count_history_le (writes : List Write) :
    shipmentAccount.count (empty.history writes) ≤ writes.countP Write.isNumbered ∧
      requisitionAccount.count (empty.history writes) ≤ writes.countP Write.isNumbered := by
  induction writes using run_induction with
  | start => exact ⟨Nat.le_refl 0, Nat.le_refl 0⟩
  | step writes write inductionHypothesis effect =>
      obtain ⟨shipments, requisitions⟩ := inductionHypothesis
      obtain ⟨shipment, requisition⟩ := effect.count_le
      rw [history_append_singleton, Account.count_append, Account.count_append, List.countP_append]
      exact ⟨Nat.add_le_add shipments shipment, Nat.add_le_add requisitions requisition⟩

/-- With fewer writes than numbers, the next record can be numbered. -/
theorem hasRoom_history {writes : List Write}
    (few : writes.countP Write.isNumbered + 1 < Nat.pow 2 63) :
    HasRoom (empty.history writes) := by
  obtain ⟨shipments, requisitions⟩ := count_history_le writes
  exact ⟨by omega, by omega⟩

/-- After every run with fewer creations than numbers the tables hold what is left. -/
theorem kept_writeAll (writes : List Write)
    (few : writes.countP Write.isNumbered < Nat.pow 2 63) :
    Kept (empty.writeAll writes) (empty.history writes) := by
  induction writes using run_induction with
  | start => exact kept_empty
  | step writes write inductionHypothesis effect =>
      rw [List.countP_append] at few
      rw [history_append_singleton]
      refine effect.kept (inductionHypothesis (by omega)) ?_ (sound_writeAll _)
      intro numbered
      have one : [write].countP Write.isNumbered = 1 := List.countP_cons_of_pos numbered
      exact hasRoom_history (by omega)

end Depot.Database
