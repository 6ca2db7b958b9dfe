import Depot.Proofs.Database.Written
import Depot.Proofs.Edit.Course
import Depot.Proofs.Screen.Packs
import Mathlib.Data.Finset.Card

/-!
Contract: how many lines a save of pack counts says it has saved.

The screen of a shipment passes over the counts that name no line of stock, and tells how many
are left once the source has stored them. A line that is named twice is told twice, but it is one
line that changes, before the source replies as well as after. The number that is told is the
number of lines just when no line of stock is named again.

Owns: the numbers that saves tell, against the lines that they change.
Does not own: the counts that lines get (`Depot.Proofs.Screen.Packs`).
-/

namespace Depot

open Decimal

/-- Counts leave a service as it is. -/
theorem Line.recount_of_service {line : Line} (service : line.isService = true)
    (changes : List (String × Binary64)) : line.recount changes = line := by
  obtain ⟨id, shipmentId, item, content⟩ := line
  cases content with
  | stockIn | stockOut => cases service
  | service total note =>
      rw [recount]
      cases lastCount? changes id <;> rfl

namespace ShipmentScreen

variable {rows : List Line} {changes : List (String × Binary64)}

/-- The lines of stock that are named, each once. -/
def namedLines (rows : List Line) (changes : List (String × Binary64)) : List Line :=
  rows.filter fun line => !line.isService && changes.any fun change => change.1 = line.id

/-- The ids of lines of stock that are given, as often as they are given. -/
def namedIds (rows : List Line) (changes : List (String × Binary64)) : List String :=
  (changes.map Prod.fst).filter fun id => rows.any fun line => line.id = id && !line.isService

/-! ### Numbers -/

/-- The screen makes a changed line of every id that names a line of stock. -/
theorem length_filterMap_lineWithPacks? (rows : List Line) (changes : List (String × Binary64)) :
    (changes.filterMap (lineWithPacks? rows)).length = (namedIds rows changes).length := by
  rw [namedIds, List.filter_map, List.length_map, ← List.countP_eq_length_filter,
    List.length_filterMap_eq_countP]
  congr 1
  funext change
  rw [Function.comp_apply, lineWithPacks?, Option.isSome_map, Bool.eq_iff_iff,
    List.find?_isSome, List.any_eq_true]

/-- With different ids there are as many lines named as different ids name one. -/
theorem length_namedLines (distinct : (rows.map Line.id).Nodup)
    (changes : List (String × Binary64)) :
    (namedLines rows changes).length = (namedIds rows changes).toFinset.card := by
  have apart : ((namedLines rows changes).map Line.id).Nodup :=
    (List.filter_sublist.map Line.id).nodup distinct
  rw [← List.length_map Line.id, ← List.toFinset_card_of_nodup apart]
  congr 1
  ext id
  simp only [namedLines, namedIds, List.mem_toFinset, List.mem_map, List.mem_filter,
    Bool.and_eq_true, Bool.not_eq_true', List.any_eq_true, decide_eq_true_eq]
  constructor
  · rintro ⟨line, ⟨member, stock, change, given, named⟩, rfl⟩
    exact ⟨⟨change, given, named⟩, line, member, rfl, stock⟩
  · rintro ⟨⟨change, given, rfl⟩, line, member, named, stock⟩
    exact ⟨line, ⟨member, stock, change, given, named.symm⟩, named⟩

/-- As many lines as ids are named just when no line is named again. -/
theorem length_namedIds_eq_iff (distinct : (rows.map Line.id).Nodup)
    (changes : List (String × Binary64)) :
    (namedIds rows changes).length = (namedLines rows changes).length ↔
      (namedIds rows changes).Nodup := by
  rw [length_namedLines distinct]
  constructor
  · intro same
    rw [List.card_toFinset] at same
    have whole := (List.dedup_sublist (namedIds rows changes)).eq_of_length same.symm
    exact List.dedup_eq_self.mp whole
  · intro apart
    exact (List.toFinset_card_of_nodup apart).symm

/-! ### What changes before the reply -/

/-- Every line is shown with the last count that is given for it. -/
theorem withReplacements_lineWithPacks? (distinct : (rows.map Line.id).Nodup)
    (changes : List (String × Binary64)) :
    Rows.withReplacements (changes.filterMap (lineWithPacks? rows)) rows =
      rows.map (Line.recount · changes) := by
  refine List.map_congr_left ?_
  intro line member
  show (Rows.find? (changes.filterMap (lineWithPacks? rows)).reverse line.id).getD line = _
  cases service : line.isService with
  | true =>
      rw [find?_reverse_lineWithPacks?_service distinct member service,
        Line.recount_of_service service]
      rfl
  | false =>
      rw [find?_reverse_lineWithPacks? distinct member service]
      rfl

/-- A line that is not named stays as it is. -/
theorem recount_of_unnamed {line : Line} (member : line ∈ rows)
    (unnamed : line ∉ namedLines rows changes) : line.recount changes = line := by
  cases service : line.isService with
  | true => exact Line.recount_of_service service changes
  | false =>
      rw [Line.recount]
      cases last : lastCount? changes line.id with
      | none => rfl
      | some packs =>
          refine absurd (List.mem_filter.mpr ⟨member, ?_⟩) unnamed
          rw [service, Bool.not_false, Bool.true_and, List.any_eq_true]
          exact ⟨_, mem_of_lastCount? last, decide_eq_true rfl⟩

/-! ### Saves -/

section

variable {σ : Type}

/-- The course of a save of pack counts. -/
def save (screen : ShipmentScreen) (changes : List (String × Binary64)) (world : World σ Line)
    (state : σ) (desk : Desk Line) : Course Line :=
  desk.follow world state (desk.update (screen.packUpdate changes desk.cache))

/-- Whether a save, if it is committed, tells how many lines of stock are named. -/
def IsHonest (course : Course Line) (rows : List Line) (changes : List (String × Binary64)) :
    Prop :=
  ∀ count, course.finding = .outcome (.committed count) →
    count = (namedLines rows changes).length ∧
      course.told = [⟨.success, .saved .lines (namedLines rows changes).length⟩]

/-- What a save that is committed tells, and what it changes before the source replies. -/
structure Saved (course : Course Line) (key : ListKey) (rows : List Line)
    (changes : List (String × Binary64)) (count : Nat) : Prop where
  told : course.told = [⟨.success, .saved .lines count⟩]
  counted : count = (namedIds rows changes).length
  shown : ∃ write settle, course.questions = [write, settle] ∧
    write.cache.get? key = some (rows.map (Line.recount · changes))
  unnamed : ∀ line ∈ rows, line ∉ namedLines rows changes → line.recount changes = line

variable {screen : ShipmentScreen} {desk : Desk Line} {world : World σ Line} {state : σ}

theorem saved_of_committed (cached : desk.cache.get? screen.key = some rows)
    (distinct : (rows.map Line.id).Nodup) (unlocked : screen.header.linesLocked = false)
    {count : Nat}
    (committed : (screen.save changes world state desk).finding = .outcome (.committed count)) :
    Saved (screen.save changes world state desk) screen.key rows changes count := by
  have saves := desk.follow_update world state (screen.packUpdate changes desk.cache)
  have lines : screen.cached desk.cache = rows := by
    rw [ShipmentScreen.cached, cached, Option.getD_some]
  have changed : (screen.packUpdate changes desk.cache).rows =
      changes.filterMap (lineWithPacks? rows) := by
    rw [packUpdate, lines]
  by_cases none : (screen.packUpdate changes desk.cache).rows = []
  · have declined := saves.nothing unlocked none
    rw [save, declined.finding] at committed
    cases committed
  · obtain ⟨write, settle, carried⟩ := saves.carried unlocked none
    rw [save, carried.finding] at committed
    cases answered : write.answered with
    | false =>
        rw [answered] at committed
        cases committed
    | true =>
        rw [answered] at committed
        cases committed
        refine ⟨?_, ?_, ⟨write, settle, carried.questions, ?_⟩, fun line => recount_of_unnamed⟩
        · have told := carried.told
          rw [answered] at told
          exact told
        · rw [changed, length_filterMap_lineWithPacks?]
        · have shown := (Rows.rel_iff_eq_map Rows.eq_withReplacements_iff).mp carried.shown
          rw [changed] at shown
          rw [← withReplacements_lineWithPacks? distinct, ← Option.map_some, ← cached]
          exact shown

/-- What is told of the saves of a list of lines with different ids, while the shipment is not
locked. -/
structure Tells (course : Course Line) (key : ListKey) (rows : List Line)
    (changes : List (String × Binary64)) : Prop where
  saved : ∀ count, course.finding = .outcome (.committed count) →
    Saved course key rows changes count
  /-- The number is right just when no line of stock is named again. -/
  honest : IsHonest course rows changes ↔
    ∀ count, course.finding = .outcome (.committed count) → (namedIds rows changes).Nodup

/-- Whatever the source replies, and whatever others do meanwhile. -/
theorem tells_save (world : World σ Line) (state : σ) (changes : List (String × Binary64))
    (cached : desk.cache.get? screen.key = some rows) (distinct : (rows.map Line.id).Nodup)
    (unlocked : screen.header.linesLocked = false) :
    Tells (screen.save changes world state desk) screen.key rows changes := by
  have saved : ∀ count,
      (screen.save changes world state desk).finding = .outcome (.committed count) →
      Saved (screen.save changes world state desk) screen.key rows changes count :=
    fun count committed => saved_of_committed cached distinct unlocked committed
  refine ⟨saved, ?_, ?_⟩
  · intro honest count committed
    refine (length_namedIds_eq_iff distinct changes).mp ?_
    exact (saved count committed).counted.symm.trans (honest count committed).1
  · intro apart count committed
    have right : count = (namedLines rows changes).length :=
      (saved count committed).counted.trans
        ((length_namedIds_eq_iff distinct changes).mpr (apart count committed))
    exact ⟨right, right ▸ (saved count committed).told⟩

end

/-! ### A line of stock beside a service -/

namespace BesideService

def line : Line := ⟨"a", "s", ⟨"c", "C", "Gauze"⟩, .stockIn ⟨none, none, 1, .zero⟩ .zero⟩

def service : Line := ⟨"b", "s", ⟨"c", "C", "Gauze"⟩, .service .zero none⟩

def screen : ShipmentScreen := .opened ⟨"s", 1, .inbound, .new, "Clinic", false, .epoch⟩

def desk : Desk Line := ⟨Cache.empty.set screen.key [line, service], []⟩

/-- A source that does what it is asked, with nobody else at the desk. -/
def world : World Unit Line :=
  .quiet fun state ask => (state, match ask with
    | .fetch _ => .ok [line, service]
    | .remove targets => .ok targets.length
    | .update rows => .ok rows.length)

/-- The service and an unknown id are named besides the line. -/
def mixed : List (String × Binary64) := [("b", .zero), ("x", .zero), ("a", .zero)]

/-- One line is told and one line is named. -/
theorem tells_mixed :
    (screen.save mixed world () desk).told = [⟨.success, .saved .lines 1⟩] ∧
      IsHonest (screen.save mixed world () desk) [line, service] mixed := by
  have committed : (screen.save mixed world () desk).finding = .outcome (.committed 1) := by
    show ((Call.follow world () _ (.writing _)).after [] _).finding = _
    rw [Call.follow_waiting rfl rfl, Call.follow_finished rfl rfl]
    rfl
  have tells : Tells (screen.save mixed world () desk) screen.key [line, service] mixed :=
    tells_save world () mixed rfl (by decide) rfl
  refine ⟨(tells.saved 1 committed).told, tells.honest.mpr ?_⟩
  intro count _
  decide

/-- The line is named twice. -/
def twice : List (String × Binary64) :=
  [("a", ⟨0x4000000000000000⟩), ("a", ⟨0x4008000000000000⟩)]

/-- Two lines are told, but only one is named. -/
theorem not_isHonest_twice :
    desk.cache.get? screen.key = some [line, service] ∧
      ([line, service].map Line.id).Nodup ∧ screen.header.linesLocked = false ∧
      ¬IsHonest (screen.save twice world () desk) [line, service] twice := by
  have committed : (screen.save twice world () desk).finding = .outcome (.committed 2) := by
    show ((Call.follow world () _ (.writing _)).after [] _).finding = _
    rw [Call.follow_waiting rfl rfl, Call.follow_finished rfl rfl]
    rfl
  refine ⟨rfl, by decide, rfl, ?_⟩
  intro honest
  have one : (namedLines [line, service] twice).length = 1 := by decide
  have wrong := (honest 2 committed).1
  rw [one] at wrong
  cases wrong

end BesideService

end ShipmentScreen

end Depot
