import Depot.Proofs.Wire.Records
import Depot.Wire.Stock

/-!
Contract: the descriptions of stock records are faithful.

A record is built exactly from the values that its fields show, so that the general theorem
about records applies. The content of a line is the exception: its kind is one more member,
which is taken out before the others are read as one of three records.

Owns: the faithful forms of words, rows, lines and rejections.
Does not own: the documents that requests and answers are (`Depot.Proofs.Wire.RoundTrip`).
-/

namespace Depot

open Wire Decimal Json
open Database (bind_eq_ok)

/-! ### Words -/

instance : Faithful Direction :=
  faithfulOfWords fun direction => by cases direction <;> rfl

instance : Faithful ShipmentStatus :=
  faithfulOfWords fun status => by cases status <;> rfl

instance : Faithful RequisitionStatus :=
  faithfulOfWords fun status => by cases status <;> rfl

instance : Faithful LineKind :=
  faithfulOfWords fun kind => by cases kind <;> rfl

instance : Faithful RejectionCode :=
  faithfulOfWords fun code => by cases code <;> rfl

/-! ### Records -/

instance : Item.record.IsFaithful where
  parts _ := inferInstanceAs (Faithful String)
  distinct := by decide
  build_iff := Record.build_iff_of_strict fun draft field missing => by
    dsimp only [Item.record] at draft field missing ⊢
    cases field <;> simp [missing]

instance : Faithful Item := Item.record.toFaithful

instance : Target.record.IsFaithful where
  parts
    | .id => inferInstanceAs (Faithful String)
    | .parentId => inferInstanceAs (Faithful (Option String))
  distinct := by decide
  build_iff := Record.build_iff_of_strict fun draft field missing => by
    dsimp only [Target.record] at draft field missing ⊢
    cases field <;> simp [missing]
  absent_of_unwritten target field _ unwritten := by
    cases field with
    | id => cases unwritten
    | parentId =>
        have none : target.parentId = none :=
          Option.isNone_iff_eq_none.mp (Option.isSome_eq_false_iff.mp unwritten)
        exact congrArg some none.symm
  plain field value := by
    cases field with
    | id => exact fun _ => rfl
    | parentId =>
        rintro (absent | unsent)
        · obtain rfl := Option.some.inj absent
          rfl
        · obtain rfl := Option.some.inj unsent
          rfl

instance : Faithful Target := Target.record.toFaithful

instance : Shipment.record.IsFaithful where
  parts
    | .id => inferInstanceAs (Faithful String)
    | .number => inferInstanceAs (Faithful Int64)
    | .direction => inferInstanceAs (Faithful Direction)
    | .status => inferInstanceAs (Faithful ShipmentStatus)
    | .party => inferInstanceAs (Faithful String)
    | .onHold => inferInstanceAs (Faithful Bool)
    | .createdAt => inferInstanceAs (Faithful Calendar.Instant)
  distinct := by decide
  build_iff := Record.build_iff_of_strict fun draft field missing => by
    dsimp only [Shipment.record] at draft field missing ⊢
    cases field <;> simp [missing]

instance : Faithful Shipment := Shipment.record.toFaithful

instance : Requisition.record.IsFaithful where
  parts
    | .id => inferInstanceAs (Faithful String)
    | .number => inferInstanceAs (Faithful Int64)
    | .status => inferInstanceAs (Faithful RequisitionStatus)
    | .party => inferInstanceAs (Faithful String)
    | .createdAt => inferInstanceAs (Faithful Calendar.Instant)
  distinct := by decide
  build_iff := Record.build_iff_of_strict fun draft field missing => by
    dsimp only [Requisition.record] at draft field missing ⊢
    cases field <;> simp [missing]

instance : Faithful Requisition := Requisition.record.toFaithful

instance : Rejection.record.IsFaithful where
  parts
    | .code => inferInstanceAs (Faithful RejectionCode)
    | .message => inferInstanceAs (Faithful String)
  distinct := by decide
  build_iff := Record.build_iff_of_strict fun draft field missing => by
    dsimp only [Rejection.record] at draft field missing ⊢
    cases field <;> simp [missing]

instance : Faithful Rejection := Rejection.record.toFaithful

/-! ### Contents -/

/-- The fields of stock are faithful, whatever the price is called. -/
@[reducible] def Stock.Field.parts : (field : Stock.Field) → @Faithful field.Value field.wire
  | .stockLineId => inferInstanceAs (Faithful String)
  | .batch => inferInstanceAs (Faithful (Option String))
  | .expiry => inferInstanceAs (Faithful (Option Calendar.Date))
  | .packSize => inferInstanceAs (Faithful UInt32)
  | .packs => inferInstanceAs (Faithful Binary64)
  | .price => inferInstanceAs (Faithful Binary64)

theorem Stock.Field.plain (field : Stock.Field) {value : field.Value}
    (absent : field.absent = some value) : (parts field).doubles value = [] := by
  cases field with
  | stockLineId | packSize | packs | price => cases absent
  | batch | expiry =>
      obtain rfl := Option.some.inj absent
      rfl

theorem Stock.ofDraft?_eq_some (draft : (field : Stock.Field) → Option field.Value)
    (stock : Stock) : Stock.ofDraft? draft = some stock ↔
      draft .batch = some stock.batch ∧ draft .expiry = some stock.expiry ∧
        draft .packSize = some stock.packSize ∧ draft .packs = some stock.packs := by
  constructor
  · intro made
    obtain ⟨batch, isBatch, made⟩ := Option.bind_eq_some_iff.mp made
    obtain ⟨expiry, isExpiry, made⟩ := Option.bind_eq_some_iff.mp made
    obtain ⟨packSize, isPackSize, made⟩ := Option.bind_eq_some_iff.mp made
    obtain ⟨packs, isPacks, made⟩ := Option.bind_eq_some_iff.mp made
    obtain rfl := Option.some.inj made
    exact ⟨isBatch, isExpiry, isPackSize, isPacks⟩
  · rintro ⟨isBatch, isExpiry, isPackSize, isPacks⟩
    refine Option.bind_eq_some_iff.mpr ⟨_, isBatch, ?_⟩
    refine Option.bind_eq_some_iff.mpr ⟨_, isExpiry, ?_⟩
    refine Option.bind_eq_some_iff.mpr ⟨_, isPackSize, ?_⟩
    exact Option.bind_eq_some_iff.mpr ⟨_, isPacks, rfl⟩

namespace LineContent

theorem mem_fields_stockIn (field : Stock.Field) :
    field ∈ [Stock.Field.batch, .expiry, .packSize, .packs, .price] ↔ field ≠ .stockLineId := by
  cases field <;> decide

instance : stockInRecord.IsFaithful where
  parts := Stock.Field.parts
  distinct := by decide
  build_iff draft content := by
    constructor
    · intro made
      obtain ⟨stock, isStock, made⟩ := Option.bind_eq_some_iff.mp made
      obtain ⟨price, isPrice, made⟩ := Option.bind_eq_some_iff.mp made
      obtain rfl := Option.some.inj made
      obtain ⟨isBatch, isExpiry, isPackSize, isPacks⟩ :=
        (Stock.ofDraft?_eq_some draft stock).mp isStock
      intro field member
      cases field with
      | stockLineId => exact absurd rfl ((mem_fields_stockIn _).mp member)
      | batch | expiry | packSize | packs | price => assumption
    · intro shown
      have all : ∀ field : Stock.Field, field ≠ .stockLineId → draft field = _ :=
        fun field received => shown field ((mem_fields_stockIn field).mpr received)
      have isStock : Stock.ofDraft? draft = some content.1 :=
        (Stock.ofDraft?_eq_some draft content.1).mpr
          ⟨all .batch nofun, all .expiry nofun, all .packSize nofun, all .packs nofun⟩
      refine Option.bind_eq_some_iff.mpr ⟨_, isStock, ?_⟩
      exact Option.bind_eq_some_iff.mpr ⟨_, all .price nofun, rfl⟩
  plain field value := by
    rintro (absent | unsent)
    · exact field.plain absent
    · contradiction

instance : stockOutRecord.IsFaithful where
  parts := Stock.Field.parts
  distinct := by decide
  build_iff := Record.build_iff_of_strict fun draft field missing => by
    dsimp only [stockOutRecord] at draft field missing ⊢
    cases field <;> simp [Stock.ofDraft?, missing]
  plain field value := by
    rintro (absent | unsent)
    · exact field.plain absent
    · contradiction

instance : serviceRecord.IsFaithful where
  parts
    | .total => inferInstanceAs (Faithful Binary64)
    | .note => inferInstanceAs (Faithful (Option String))
  distinct := by decide
  build_iff := Record.build_iff_of_strict fun draft field missing => by
    dsimp only [serviceRecord] at draft field missing ⊢
    cases field <;> simp [missing]
  plain field value := by
    cases field with
    | total => rintro (absent | unsent) <;> contradiction
    | note =>
        rintro (absent | unsent)
        · obtain rfl := Option.some.inj absent
          rfl
        · contradiction

/-- The members of a content beside its tag. -/
def shownMembers (content : LineContent) : List (Option String × Json) :=
  content.untaggedMembers.map fun member => (some member.1, member.2)

theorem encode_eq (content : LineContent) :
    encode content =
      .object ((some tagName, Json.ofString content.kind.word) :: content.shownMembers)
        .closed := rfl

/-- The doubles of a content are those of its record. -/
def recordDoubles : LineContent → List Binary64
  | .stockIn stock price => stockInRecord.doubles (stock, price)
  | .stockOut stockLineId stock price => stockOutRecord.doubles (stockLineId, stock, price)
  | .service total note => serviceRecord.doubles (total, note)

theorem isTag_eq_false {record : Record α} (untagged : tagName ∉ record.fields.map record.name)
    (value : α) {fields : List record.Field} (listed : ∀ field ∈ fields, field ∈ record.fields) :
    ∀ member ∈ record.membersOf value fields, isTag member = false := by
  unfold Record.membersOf
  rw [List.forall_mem_map]
  intro field inside
  refine decide_eq_false fun named => untagged ?_
  rw [← Option.some.inj named]
  exact List.mem_map.mpr ⟨field, listed field inside, rfl⟩

theorem isTag_shownMembers (content : LineContent) :
    ∀ member ∈ content.shownMembers, isTag member = false := by
  have listed : ∀ {β : Type} {fields : List β} {written : β → Bool},
      ∀ field ∈ fields.filter written, field ∈ fields :=
    fun field inside => (List.mem_filter.mp inside).1
  unfold shownMembers
  cases content with
  | stockIn =>
      rw [untaggedMembers, Record.map_members]
      exact isTag_eq_false (by decide) _ listed
  | stockOut =>
      rw [untaggedMembers, Record.map_members]
      exact isTag_eq_false (by decide) _ listed
  | service =>
      rw [untaggedMembers, Record.map_members]
      exact isTag_eq_false (by decide) _ listed

theorem isPrintable_shownMembers (content : LineContent) :
    ∀ member ∈ content.shownMembers, member.1.isSome = true ∧ member.2.IsPrintable := by
  unfold shownMembers
  cases content with
  | stockIn | stockOut | service =>
      rw [untaggedMembers, Record.map_members]
      exact Record.isPrintable_membersOf _ _

theorem isReadable_shownMembers (room : Nat) {content : LineContent}
    (back : ∀ number ∈ content.recordDoubles, ReadsBack number) :
    ∀ member ∈ content.shownMembers,
      member.1.isSome = true ∧ member.2.isReadable room = true := by
  unfold shownMembers
  cases content with
  | stockIn | stockOut | service =>
      rw [untaggedMembers, Record.map_members]
      exact Record.isReadable_membersOf (Nat.zero_le room) back

theorem ofMembers_shownMembers (room : Nat) (content : LineContent) :
    ofMembers room content.shownMembers content.kind = .ok content ↔
      ∀ number ∈ content.recordDoubles, ReadsBack number := by
  unfold shownMembers
  cases content with
  | stockIn | stockOut | service =>
      rw [untaggedMembers, Record.map_members]
      refine Iff.trans ?_ (Record.ofObject_membersOf_self (Nat.zero_le room))
      constructor
      · intro read
        obtain ⟨parts, made, same⟩ := bind_eq_ok.mp read
        cases same
        exact made
      · intro made
        exact bind_eq_ok.mpr ⟨_, made, rfl⟩

theorem kindOfTag_word (kind : LineKind) : kindOfTag (Json.ofString kind.word) = .ok kind := by
  cases kind <;> rfl

theorem isFinite_ofMembers {room : Nat} {members : List (Option String × Json)}
    {kind : LineKind} {content : LineContent} (read : ofMembers room members kind = .ok content) :
    ∀ number ∈ content.recordDoubles, number.isFinite = true := by
  cases kind with
  | stockIn | stockOut | service =>
      obtain ⟨parts, made, same⟩ := bind_eq_ok.mp read
      obtain rfl := Except.ok.inj same
      exact Record.isFinite_ofObject made

theorem isFinite_ofItems {room : Nat} {items : List Json} {kind : LineKind}
    {content : LineContent} (read : ofItems room items kind = .ok content) :
    ∀ number ∈ content.recordDoubles, number.isFinite = true := by
  cases kind with
  | stockIn | stockOut | service =>
      obtain ⟨parts, made, same⟩ := bind_eq_ok.mp read
      obtain rfl := Except.ok.inj same
      exact Record.isFinite_ofArray made

theorem isReadable_encode (room : Nat) {content : LineContent}
    (back : ∀ number ∈ content.recordDoubles, ReadsBack number) :
    (encode content).isReadable (room + 1) = true := by
  have others := (membersAreReadable_iff room _).mpr (isReadable_shownMembers room back)
  rw [encode_eq, isReadable, decide_eq_true rfl, Bool.true_and, membersAreReadable, others]
  rfl

/-- A readable object with one tag is read by its kind, without the tag. -/
theorem decode_object {room : Nat} {members : List (Option String × Json)} {ending : Ending}
    (readable : (object members ending).isReadable room = true)
    {tag : Option String × Json} (tagged : members.filter isTag = [tag]) :
    decode room (object members ending) =
      (kindOfTag tag.2 >>= ofMembers (room - 1) (members.filter fun member => !isTag member)) := by
  simp only [decode, readable, tagged]
  rfl

theorem isReadable_of_decode {room : Nat} {tree : Json} {content : LineContent}
    (decoded : decode room tree = .ok content) : tree.isReadable room = true := by
  simp only [decode] at decoded
  split at decoded
  next => cases decoded
  next readable => simpa using readable

theorem decode_tagged {room : Nat} {content : LineContent}
    (readable : (encode content).isReadable (room + 1) = true) :
    decode (room + 1) (encode content) = ofMembers room content.shownMembers content.kind := by
  have untagged := content.isTag_shownMembers
  have none : content.shownMembers.filter isTag = [] := by
    rw [List.filter_eq_nil_iff]
    intro member inside
    rw [untagged member inside]
    exact Bool.false_ne_true
  have all : (content.shownMembers.filter fun member => !isTag member) =
      content.shownMembers := by
    rw [List.filter_eq_self]
    intro member inside
    rw [untagged member inside]
    rfl
  have tag : isTag (some tagName, Json.ofString content.kind.word) = true := rfl
  rw [encode_eq] at readable ⊢
  rw [decode_object readable (List.filter_cons_of_pos tag |>.trans (congrArg _ none)),
    List.filter_cons_of_neg (by rw [tag]; exact Bool.false_ne_true), all, kindOfTag_word]
  rfl

theorem decode_encode (room : Nat) (content : LineContent) :
    decode (room + 1) (encode content) = .ok content ↔
      ∀ number ∈ content.recordDoubles, ReadsBack number := by
  constructor
  · intro decoded
    rw [decode_tagged (isReadable_of_decode decoded)] at decoded
    exact (ofMembers_shownMembers room content).mp decoded
  · intro back
    rw [decode_tagged (isReadable_encode room back)]
    exact (ofMembers_shownMembers room content).mpr back

theorem isFinite_of_decode {room : Nat} {tree : Json} {content : LineContent}
    (decoded : decode room tree = .ok content) :
    ∀ number ∈ content.recordDoubles, number.isFinite = true := by
  simp only [decode] at decoded
  split at decoded
  next => cases decoded
  next =>
    split at decoded
    next =>
      split at decoded
      next =>
        obtain ⟨kind, -, read⟩ := bind_eq_ok.mp decoded
        exact isFinite_ofMembers read
      next => cases decoded
    next =>
      obtain ⟨kind, -, read⟩ := bind_eq_ok.mp decoded
      exact isFinite_ofItems read
    next => cases decoded

end LineContent

instance : Faithful LineContent where
  doubles := LineContent.recordDoubles
  depth := 1
  printable content := by
    rw [LineContent.encode_eq]
    exact ⟨rfl, rfl, rfl, (membersArePrintable_iff _).mpr content.isPrintable_shownMembers⟩
  readable := by
    rintro (_ | room) content deep back
    · cases deep
    · exact LineContent.isReadable_encode room back
  reads_iff := by
    rintro (_ | room) content deep
    · cases deep
    · exact LineContent.decode_encode room content
  finite _ _ _ decoded := LineContent.isFinite_of_decode decoded

instance : Line.record.IsFaithful where
  parts
    | .id => inferInstanceAs (Faithful String)
    | .shipmentId => inferInstanceAs (Faithful String)
    | .item => inferInstanceAs (Faithful Item)
    | .content => inferInstanceAs (Faithful LineContent)
  distinct := by decide
  build_iff := Record.build_iff_of_strict fun draft field missing => by
    dsimp only [Line.record] at draft field missing ⊢
    cases field <;> simp [missing]

instance : Faithful Line := Line.record.toFaithful

end Depot
