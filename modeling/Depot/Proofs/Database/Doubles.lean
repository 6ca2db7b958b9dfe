import Depot.Proofs.Database.History

/-!
Contract: the doubles in the lines that a run of writes leaves.

A double comes into a line with the line, or as its pack count. What is true of every double
that accepted writes put there is true of every double that is there in the end. Of the
counts that one batch gives for a line only the last one is put into it, so that a bad count
does no harm when a later one of the same batch replaces it.

Owns: the doubles of lines, and what a run preserves of them.
Does not own: what columns keep of doubles (`Depot.Proofs.Database.Packs`).
-/

namespace Depot

open Database Decimal

namespace LineContent

/-- The doubles of a content. -/
def doubles : LineContent → List Binary64
  | .stockIn stock price => [stock.packs, price]
  | .stockOut _ stock price => [stock.packs, price]
  | .service total _ => [total]

theorem isNumeric_iff (content : LineContent) :
    content.IsNumeric ↔ ∀ number ∈ content.doubles, number.isNaN = false := by
  cases content <;> simp [IsNumeric, doubles]

theorem mem_doubles_withPacks {content : LineContent} {packs number : Binary64}
    (member : number ∈ (content.withPacks packs).doubles) :
    number = packs ∨ number ∈ content.doubles := by
  cases content with
  | stockIn stock price =>
      rcases List.mem_cons.mp member with same | later
      · exact .inl same
      · exact .inr (List.mem_cons_of_mem _ later)
  | stockOut stockLineId stock price =>
      rcases List.mem_cons.mp member with same | later
      · exact .inl same
      · exact .inr (List.mem_cons_of_mem _ later)
  | service total note => exact .inr member

end LineContent

namespace Database

/-- Whether every double that a write puts into a line is good. -/
def Write.PutsGood (Good : Binary64 → Prop) : Write → Prop
  | .addLine _ _ _ content => ∀ number ∈ content.doubles, Good number
  | .updatePacks changes => ∀ id packs, lastCount? changes id = some packs → Good packs
  | .createShipment .. | .setShipmentStatus .. | .setShipmentHold .. | .deleteShipments ..
  | .deleteLines .. | .createRequisition .. | .setRequisitionStatus ..
  | .deleteRequisitions .. => True

/-- Whether every double in the lines is good. -/
def AllGood (Good : Binary64 → Prop) (lines : List Line) : Prop :=
  ∀ line ∈ lines, ∀ number ∈ line.content.doubles, Good number

variable {Good : Binary64 → Prop}

theorem AllGood.recount {lines : List Line} (good : AllGood Good lines)
    {changes : List (String × Binary64)}
    (put : ∀ id packs, lastCount? changes id = some packs → Good packs) :
    AllGood Good (lines.map (Line.recount · changes)) := by
  intro new member number isDouble
  obtain ⟨line, inside, rfl⟩ := List.mem_map.mp member
  rw [Line.recount] at isDouble
  cases last : lastCount? changes line.id with
  | none =>
      rw [last] at isDouble
      exact good line inside number isDouble
  | some packs =>
      rw [last] at isDouble
      rcases LineContent.mem_doubles_withPacks isDouble with rfl | old
      · exact put line.id number last
      · exact good line inside number old

/-- A write that is accepted, if it puts good doubles, leaves good doubles. -/
theorem Effect.allGood {database after : Database} {write : Write} {event? : Option Event}
    (effect : Effect database write event? after)
    (put : event?.isSome = true → write.PutsGood Good) {events : List Event}
    (good : AllGood Good (lineAccount.left events)) :
    AllGood Good (lineAccount.left (events ++ event?.toList)) := by
  have quiet : ∀ {event? : Option Event}, (∀ event ∈ event?, lineAccount.made? event = none ∧
      ∀ line, lineAccount.next? event line = some line) →
      AllGood Good (lineAccount.left (events ++ event?.toList)) := by
    intro event? nothing
    rw [lineAccount.left_append_quiet nothing]
    exact good
  cases effect with
  | addLine id shipmentId item content accepted owned =>
      rw [Option.toList_some, lineAccount.left_append_made rfl (fun line => rfl)]
      exact forall_mem_append_singleton good (put rfl)
  | updatePacks changes =>
      rw [Option.toList_some, lineAccount.left_append_changed rfl (fun line => rfl)]
      exact good.recount (put rfl)
  | deleteLines ids | deleteShipments ids =>
      rw [Option.toList_some, lineAccount.left_append_ended rfl (fun line => rfl)]
      exact fun line member => good line (List.mem_filter.mp member).1
  | createShipment id now direction party accepted =>
      refine quiet ?_
      intro event is
      obtain ⟨shipment, -, rfl⟩ := Option.map_eq_some_iff.mp is
      exact ⟨rfl, fun line => rfl⟩
  | createRequisition id now party accepted =>
      refine quiet ?_
      intro event is
      obtain ⟨requisition, -, rfl⟩ := Option.map_eq_some_iff.mp is
      exact ⟨rfl, fun line => rfl⟩
  | refused write => exact quiet (by rintro event ⟨⟩)
  | setShipmentStatus | setShipmentHold | setRequisitionStatus | deleteRequisitions =>
      exact quiet (by rintro event ⟨⟩; exact ⟨rfl, fun line => rfl⟩)

/-- Whether a write is answered with something. -/
def Accepts (database : Database) (write : Write) : Prop :=
  (database.event? write).isSome = true

instance (database : Database) (write : Write) : Decidable (database.Accepts write) :=
  inferInstanceAs (Decidable ((database.event? write).isSome = true))

/-- Whether something is true of every accepted write of a run and what comes before it. -/
def EachAccepted (meets : List Write → Write → Prop) (writes : List Write) : Prop :=
  ∀ before write after, writes = before ++ write :: after →
    (empty.writeAll before).Accepts write → meets before write

theorem EachAccepted.of_append_singleton {meets : List Write → Write → Prop} {writes : List Write}
    {write : Write} (each : EachAccepted meets (writes ++ [write])) :
    EachAccepted meets writes ∧ ((empty.writeAll writes).Accepts write → meets writes write) := by
  refine ⟨?_, each writes write [] rfl⟩
  rintro before other after rfl
  exact each before other (after ++ [write]) (by simp)

/-- After every run whose accepted writes put good doubles all doubles are good. -/
theorem allGood_history {writes : List Write}
    (put : EachAccepted (fun _ write => write.PutsGood Good) writes) :
    AllGood Good (lineAccount.left (empty.history writes)) := by
  induction writes using run_induction with
  | start => exact List.forall_mem_nil _
  | step writes write inductionHypothesis effect =>
      obtain ⟨earlier, last⟩ := put.of_append_singleton
      rw [history_append_singleton]
      exact effect.allGood last (inductionHypothesis earlier)

end Database

end Depot
