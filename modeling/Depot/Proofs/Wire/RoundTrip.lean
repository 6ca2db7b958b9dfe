import Depot.Proofs.Wire.Stock
import Depot.Wire.Request

/-!
Contract: whatever is written is read back, and whatever is read can be written.

A value whose doubles are finite is written as a text that says the same value, whatever its
texts, dates and options are. A text may say a value in other ways as well, with its members
in another order, with members that nobody knows, as an array or with whole numbers for
doubles. The doubles of the value are finite all the same, so that writing it again loses
nothing.

Owns: the faithful forms of requests and answers, and the round trip of every form.
Does not own: what requests do (`Depot.Service`, `Depot.Http`).
-/

namespace Depot

open Wire Decimal Json

/-! ### Requests and answers -/

section OneField

variable {α β : Type} [Wire β] [Faithful β] {name : String} {view : α → β} {build : β → α}

/-- The one field of a type that wraps one value. -/
@[reducible] def oneFieldIsFaithful (wraps : ∀ part value, build part = value ↔ part = view value) :
    (oneField name view build).IsFaithful where
  parts _ := inferInstanceAs (Faithful β)
  distinct := List.nodup_singleton name
  build_iff draft value := by
    have mapped : (draft ()).map build = some value ↔
        ∃ part, draft () = some part ∧ build part = value := Option.map_eq_some_iff
    refine mapped.trans ?_
    constructor
    · rintro ⟨part, given, made⟩ field -
      exact given.trans (congrArg some ((wraps part value).mp made))
    · intro shown
      exact ⟨view value, shown () List.mem_cons_self, (wraps _ value).mpr rfl⟩

/-- A type that wraps one value is as faithful as the value. -/
@[reducible] def faithfulOneField (wraps : ∀ part value, build part = value ↔ part = view value) :
    @Faithful α (oneField name view build).toWire :=
  letI : (oneField name view build).IsFaithful := oneFieldIsFaithful wraps
  (oneField name view build).toFaithful

end OneField

instance : Faithful DeleteRequest :=
  faithfulOneField fun _ _ => ⟨by rintro rfl; rfl, by rintro rfl; rfl⟩

instance : Faithful DeleteAnswer :=
  faithfulOneField fun _ _ => ⟨by rintro rfl; rfl, by rintro rfl; rfl⟩

instance : Faithful ShipmentQuery :=
  faithfulOneField fun _ _ => ⟨by rintro rfl; rfl, by rintro rfl; rfl⟩

instance : PackUpdate.record.IsFaithful where
  parts
    | .id => inferInstanceAs (Faithful String)
    | .shipmentId => inferInstanceAs (Faithful String)
    | .packs => inferInstanceAs (Faithful Binary64)
  distinct := by decide
  build_iff := Record.build_iff_of_strict fun draft field missing => by
    dsimp only [PackUpdate.record] at draft field missing ⊢
    cases field <;> simp [missing]

instance : Faithful PackUpdate := PackUpdate.record.toFaithful

instance : Faithful UpdateRequest :=
  faithfulOneField fun _ _ => ⟨by rintro rfl; rfl, by rintro rfl; rfl⟩

instance : Faithful UpdateAnswer :=
  faithfulOneField fun _ _ => ⟨by rintro rfl; rfl, by rintro rfl; rfl⟩

instance : ShipmentDetail.record.IsFaithful where
  parts
    | .shipment => inferInstanceAs (Faithful Shipment)
    | .lines => inferInstanceAs (Faithful (List Line))
  distinct := by decide
  build_iff := Record.build_iff_of_strict fun draft field missing => by
    dsimp only [ShipmentDetail.record] at draft field missing ⊢
    cases field <;> simp [missing]

instance : Faithful ShipmentDetail := ShipmentDetail.record.toFaithful

/-! ### Round trips -/

namespace Wire

variable {α : Type} [Wire α] [Faithful α]

/-- Whether a value has none but finite doubles. -/
def HasFiniteDoubles (value : α) : Prop :=
  ∀ number ∈ Faithful.doubles value, number.isFinite = true

/-- Whether the finite doubles of a value are what their texts are read as. -/
def DoublesReadBack (value : α) : Prop :=
  ∀ number ∈ Faithful.doubles value, number.isFinite = true → ReadsBack number

/-- What is written is read back, and what was read from any text can be written again. -/
structure RoundTrips (α : Type) [Wire α] [Faithful α] : Prop where
  written : ∀ value : α, HasFiniteDoubles value → DoublesReadBack value →
    read α (write value) = .ok value
  accepted : ∀ (text : String) (value : α), read α text = .ok value → DoublesReadBack value →
    read α (write value) = .ok value

/-- Whatever a text says has none but finite doubles. -/
theorem hasFiniteDoubles_of_read {text : String} {value : α}
    (said : read α text = .ok value) : HasFiniteDoubles value :=
  Faithful.finite wholeRoom (Json.read text) value said

theorem roundTrips (shallow : Faithful.depth α ≤ wholeRoom) : RoundTrips α := by
  have written : ∀ value : α, HasFiniteDoubles value → DoublesReadBack value →
      read α (write value) = .ok value := by
    intro value finite back
    refine Faithful.read_write value shallow ?_
    exact fun number inside => back number inside (finite number inside)
  refine ⟨written, ?_⟩
  intro text value said back
  exact written value (hasFiniteDoubles_of_read said) back

/-- The round trip of every form in which something is written. -/
structure EveryFormRoundTrips : Prop where
  shipment : RoundTrips Shipment
  requisition : RoundTrips Requisition
  line : RoundTrips Line
  content : RoundTrips LineContent
  item : RoundTrips Item
  direction : RoundTrips Direction
  shipmentStatus : RoundTrips ShipmentStatus
  requisitionStatus : RoundTrips RequisitionStatus
  lineKind : RoundTrips LineKind
  rejectionCode : RoundTrips RejectionCode
  target : RoundTrips Target
  deleteRequest : RoundTrips DeleteRequest
  deleteAnswer : RoundTrips DeleteAnswer
  shipmentQuery : RoundTrips ShipmentQuery
  shipmentDetail : RoundTrips ShipmentDetail
  packUpdate : RoundTrips PackUpdate
  updateRequest : RoundTrips UpdateRequest
  updateAnswer : RoundTrips UpdateAnswer
  rejection : RoundTrips Rejection

/-- Every form round trips. No value nests deeper than a detail, in which a list holds lines
that hold contents. -/
theorem everyFormRoundTrips : EveryFormRoundTrips where
  shipment := roundTrips (by decide)
  requisition := roundTrips (by decide)
  line := roundTrips (by decide)
  content := roundTrips (by decide)
  item := roundTrips (by decide)
  direction := roundTrips (by decide)
  shipmentStatus := roundTrips (by decide)
  requisitionStatus := roundTrips (by decide)
  lineKind := roundTrips (by decide)
  rejectionCode := roundTrips (by decide)
  target := roundTrips (by decide)
  deleteRequest := roundTrips (by decide)
  deleteAnswer := roundTrips (by decide)
  shipmentQuery := roundTrips (by decide)
  shipmentDetail := roundTrips (by decide)
  packUpdate := roundTrips (by decide)
  updateRequest := roundTrips (by decide)
  updateAnswer := roundTrips (by decide)
  rejection := roundTrips (by decide)

namespace Sample

/-- Two packs and a half, at a tenth each, and a service. -/
def detail : ShipmentDetail where
  shipment :=
    { id := "s\"1", number := -7, direction := .inbound, status := .new, party := "Café"
      onHold := false, createdAt := Calendar.Instant.epoch }
  lines :=
    [{ id := "l1", shipmentId := "s\"1", item := ⟨"i", "c", "n"⟩
       content := .stockIn
         { batch := some "", expiry := some Calendar.Date.epoch, packSize := 10
           packs := ⟨0x4004000000000000⟩ } ⟨0x3fb999999999999a⟩ },
     { id := "l2", shipmentId := "s\"1", item := ⟨"j", "d", "\n"⟩
       content := .service .zero none }]

/-- A content as an array, with a whole number for its total. -/
def arrayText : String := "[\"service\", 3, null]"

/-- The total that it gives. -/
def total : Binary64 := ⟨0x4008000000000000⟩

theorem everyFormRoundTrips_sample :
    (HasFiniteDoubles detail ∧ DoublesReadBack detail ∧
      read ShipmentDetail (write detail) = .ok detail) ∧
    read LineContent arrayText = .ok (.service total none) ∧
      DoublesReadBack (LineContent.service total none) ∧
      read LineContent (write (LineContent.service total none)) =
        .ok (.service total none) := by
  have finite : HasFiniteDoubles detail := by
    unfold HasFiniteDoubles
    decide +kernel
  have back : DoublesReadBack detail := by
    unfold DoublesReadBack
    decide +kernel
  have said : read LineContent arrayText = .ok (.service total none) := by
    decide +kernel
  have totalBack : DoublesReadBack (LineContent.service total none) := by
    unfold DoublesReadBack
    decide +kernel
  exact ⟨⟨finite, back, everyFormRoundTrips.shipmentDetail.written detail finite back⟩, said,
    totalBack, everyFormRoundTrips.content.accepted arrayText _ said totalBack⟩

end Sample

end Wire

end Depot
