import Depot.Proofs.Wire.Faithful
import Depot.Wire.Record
import Mathlib.Data.List.Nodup

/-!
Contract: records are read as they were written.

An object is read member by member into a draft of the record. The members that a value is
written as are read one by one, because every field finds its name and meets an empty place.
So what is read of a record is what is read of its fields; a field that is not written has
the value that it gets when it is absent. Whichever object or array a record was read from,
its doubles come from readings of fields, since no field has a double to fall back on.

Owns: what a description must do to be faithful, and that its records then are.
Does not own: the descriptions (`Depot.Wire.Stock`, `Depot.Wire.Request`).
-/

namespace Depot.Wire

open Database (bind_eq_ok)
open Decimal Json

theorem membersAreReadable_iff (room : Nat) : ∀ members : List (Option String × Json),
    membersAreReadable room members = true ↔
      ∀ member ∈ members, member.1.isSome = true ∧ member.2.isReadable room = true
  | [] => by simp [membersAreReadable]
  | (key, value) :: members => by
      simp [membersAreReadable, membersAreReadable_iff room members, and_assoc]

namespace Record

variable {α : Type}

/-- What makes the readings of a record undo its writing. -/
class IsFaithful (record : Record α) where
  /-- The fields are faithful. -/
  parts : (field : record.Field) → @Faithful (record.Value field) (record.wire field)
  /-- No two fields have the same name. -/
  distinct : (record.fields.map record.name).Nodup
  /-- A record is made of its own fields, and of nothing else. -/
  build_iff : ∀ (draft : record.Draft) (value : α), record.build draft = some value ↔
    ∀ field ∈ record.fields, draft field = some (record.view value field)
  /-- A field is left out only where it is filled in again. -/
  absent_of_unwritten : ∀ (value : α), ∀ field ∈ record.fields,
    record.isWritten value field = false →
      record.absent field = some (record.view value field) := by rintro _ _ _ ⟨⟩
  /-- No field has a double to fall back on. -/
  plain : ∀ (field : record.Field) (value : record.Value field),
    record.absent field = some value ∨ record.unsent field = some value →
      (parts field).doubles value = [] := by rintro _ _ (absent | unsent) <;> contradiction

instance (record : Record α) : DecidableEq record.Field := record.sameField

/-- A record is made of its own fields if it needs each of them. That it lists them all, is
made of what its fields show, and shows what it is made of, is read off its description. -/
theorem build_iff_of_strict {record : Record α}
    (strict : ∀ draft field, draft field = none → record.build draft = none)
    (whole : ∀ field : record.Field, decide (field ∈ record.fields) = true := by
      rintro ⟨⟩ <;> rfl)
    (made : ∀ value, record.build (fun field => some (record.view value field)) = some value := by
      intro value; rfl)
    (shown : ∀ (all : (field : record.Field) → record.Value field) (value : α),
      record.build (fun field => some (all field)) = some value →
        ∀ field, all field = record.view value field := by rintro all _ ⟨⟩ ⟨⟩ <;> rfl)
    (draft : record.Draft) (value : α) : record.build draft = some value ↔
      ∀ field ∈ record.fields, draft field = some (record.view value field) := by
  constructor
  · intro built field _
    have given : ∀ field, ∃ found, draft field = some found := by
      intro field
      cases missing : draft field with
      | none =>
          rw [strict draft field missing] at built
          cases built
      | some found => exact ⟨found, rfl⟩
    choose all isAll using given
    have filled : draft = fun field => some (all field) := funext isAll
    rw [filled] at built ⊢
    exact congrArg some (shown all value built field)
  · intro placed
    have filled : draft = fun field => some (record.view value field) :=
      funext fun field => placed field (of_decide_eq_true (whole field))
    rw [filled]
    exact made value

section

variable (record : Record α) [faithful : record.IsFaithful]

/-- The doubles in the fields of a record. -/
def doubles (value : α) : List Binary64 :=
  record.fields.flatMap fun field => (faithful.parts field).doubles (record.view value field)

/-- The levels inside a record. -/
def depth : Nat :=
  (record.fields.map fun field => (faithful.parts field).depth).foldr max 0

/-- The members that fields are written as. -/
def membersOf (value : α) (fields : List record.Field) : List (Option String × Json) :=
  fields.map fun field =>
    (some (record.name field), (record.wire field).encode (record.view value field))

end

variable {record : Record α} [faithful : record.IsFaithful]

theorem depth_field_le {field : record.Field} (member : field ∈ record.fields) :
    (faithful.parts field).depth ≤ record.depth := by
  have bound : ∀ depths : List Nat, ∀ depth ∈ depths, depth ≤ depths.foldr max 0 := by
    intro depths
    induction depths with
    | nil => rintro depth ⟨⟩
    | cons first others inductionHypothesis =>
        intro depth inside
        rcases List.mem_cons.mp inside with rfl | later
        · exact Nat.le_max_left _ _
        · exact Nat.le_trans (inductionHypothesis depth later) (Nat.le_max_right _ _)
  exact bound _ _ (List.mem_map.mpr ⟨field, member, rfl⟩)

theorem mem_doubles {value : α} {field : record.Field} (member : field ∈ record.fields)
    {number : Binary64} (inside : number ∈ (faithful.parts field).doubles (record.view value field)) :
    number ∈ record.doubles value :=
  List.mem_flatMap.mpr ⟨field, member, inside⟩

/-! ### Drafts -/

omit faithful in
theorem put_same (draft : record.Draft) (field : record.Field) (value : record.Value field) :
    record.put draft field value field = some value := by
  unfold put
  cases record.sameField field field with
  | isTrue same => rfl
  | isFalse other => exact absurd rfl other

omit faithful in
theorem put_other (draft : record.Draft) {field other : record.Field} (differ : field ≠ other)
    (value : record.Value field) : record.put draft field value other = draft other := by
  unfold put
  cases record.sameField field other with
  | isTrue same => exact absurd same differ
  | isFalse _ => rfl

theorem field?_name {field : record.Field} (member : field ∈ record.fields) :
    record.field? (record.name field) = some field := by
  unfold field?
  cases found : record.fields.find? fun other => record.name other = record.name field with
  | none =>
      have missing := List.find?_eq_none.mp found field member
      exact absurd (decide_eq_true rfl) missing
  | some other =>
      have named : record.name other = record.name field := by
        simpa using List.find?_some found
      have inside := List.mem_of_find?_eq_some found
      rw [List.inj_on_of_nodup_map faithful.distinct inside member named]

/-! ### Reading what was written -/

/-- Written fields are read one after the other, each into its own empty place. -/
theorem readMembers_membersOf (room : Nat) (value : α) {written : List record.Field}
    (listed : ∀ field ∈ written, field ∈ record.fields) (once : written.Nodup)
    {draft : record.Draft} (empty : ∀ field ∈ written, draft field = none)
    (result : record.Draft) :
    record.readMembers room draft (record.membersOf value written) = .ok result ↔
      (∀ field ∈ written, ∃ found, result field = some found ∧
        (record.wire field).decode room ((record.wire field).encode (record.view value field)) =
          .ok found) ∧
      ∀ field, field ∉ written → result field = draft field := by
  induction written generalizing draft with
  | nil =>
      have same : Except.ok draft = Except.ok (ε := Fault) result ↔
          ∀ field, result field = draft field := by
        rw [Except.ok.injEq, eq_comm, funext_iff]
      simpa [membersOf, readMembers] using same
  | cons field written inductionHypothesis =>
      obtain ⟨fresh, onceMore⟩ := List.nodup_cons.mp once
      have known := listed field List.mem_cons_self
      have place := empty field List.mem_cons_self
      have emptyRest : ∀ found, ∀ other ∈ written, record.put draft field found other = none := by
        intro found other later
        have differ : field ≠ other := by
          rintro rfl
          exact fresh later
        rw [put_other draft differ]
        exact empty other (List.mem_cons_of_mem _ later)
      have rest := fun found => inductionHypothesis
        (fun other later => listed other (List.mem_cons_of_mem _ later)) onceMore
        (emptyRest found)
      simp only [membersOf, List.map_cons, readMembers, field?_name known, place,
        Option.isSome_none, Bool.false_eq_true, ↓reduceIte]
      rw [bind_eq_ok, List.forall_mem_cons]
      constructor
      · rintro ⟨found, reads, read⟩
        obtain ⟨filled, kept⟩ := (rest found).mp read
        refine ⟨⟨⟨found, ?_, reads⟩, filled⟩, ?_⟩
        · rw [kept field fresh, put_same]
        · intro other outside
          have differ : field ≠ other := by
            rintro rfl
            exact outside List.mem_cons_self
          rw [kept other fun later => outside (List.mem_cons_of_mem _ later),
            put_other draft differ]
      · rintro ⟨⟨⟨found, isFound, reads⟩, filled⟩, kept⟩
        refine ⟨found, reads, (rest found).mpr ⟨filled, ?_⟩⟩
        intro other outside
        by_cases same : field = other
        · subst same
          rw [isFound, put_same]
        · rw [put_other draft same]
          refine kept other fun inside => ?_
          rcases List.mem_cons.mp inside with rfl | later
          · exact same rfl
          · exact outside later

/-- A draft makes the record whose fields it holds, those that may be absent filled in. -/
theorem finish_eq_ok (draft : record.Draft) {found : α} :
    record.finish draft = .ok found ↔
      ∀ field ∈ record.fields,
        (draft field).or (record.absent field) = some (record.view found field) := by
  rw [← faithful.build_iff fun field => (draft field).or (record.absent field), finish]
  split
  next built => rw [built, Except.ok.injEq, Option.some.injEq]
  next built => simp [built]

/-- An object is read field by field as the record that it was written for. -/
theorem ofObject_membersOf {room : Nat} {value found : α} :
    record.ofObject room
        (record.membersOf value (record.fields.filter (record.isWritten value))) .closed =
      .ok found ↔
    ∀ field ∈ record.fields,
      (record.isWritten value field = true →
        (record.wire field).decode room ((record.wire field).encode (record.view value field)) =
          .ok (record.view found field)) ∧
      (record.isWritten value field = false →
        record.absent field = some (record.view found field)) := by
  have once : record.fields.Nodup := List.Nodup.of_map _ faithful.distinct
  have read := readMembers_membersOf room value
    (fun field inside => (List.mem_filter.mp inside).1) (once.filter (record.isWritten value))
    (fun field inside => (rfl : record.blank field = none))
  constructor
  · intro made field member
    obtain ⟨draft, drafted, built⟩ := bind_eq_ok.mp made
    obtain ⟨filled, kept⟩ := (read draft).mp drafted
    have placed := (finish_eq_ok draft).mp built field member
    constructor
    · intro written
      obtain ⟨part, isPart, reads⟩ := filled field (List.mem_filter.mpr ⟨member, written⟩)
      rw [isPart, Option.some_or] at placed
      rw [reads, Option.some.inj placed]
    · intro unwritten
      have left : field ∉ record.fields.filter (record.isWritten value) := by
        simp [unwritten]
      rw [kept field left] at placed
      exact placed
  · intro parts
    classical
    refine bind_eq_ok.mpr ⟨fun field =>
      if field ∈ record.fields.filter (record.isWritten value) then
        some (record.view found field) else none, (read _).mpr ⟨?_, ?_⟩, (finish_eq_ok _).mpr ?_⟩
    · intro field inside
      obtain ⟨member, written⟩ := List.mem_filter.mp inside
      exact ⟨_, if_pos inside, (parts field member).1 written⟩
    · intro field outside
      exact if_neg outside
    · intro field member
      cases written : record.isWritten value field with
      | true => simp [member, written]
      | false => simp [written, (parts field member).2 written]

/-- An object is read as the record that it was written for if the doubles survive. -/
theorem ofObject_membersOf_self {room : Nat} {value : α} (deep : record.depth ≤ room) :
    record.ofObject room
        (record.membersOf value (record.fields.filter (record.isWritten value))) .closed =
      .ok value ↔
    ∀ number ∈ record.doubles value, ReadsBack number := by
  have part : ∀ field ∈ record.fields,
      ((record.wire field).decode room ((record.wire field).encode (record.view value field)) =
          .ok (record.view value field) ↔
        ∀ number ∈ (faithful.parts field).doubles (record.view value field),
          ReadsBack number) :=
    fun field member => (faithful.parts field).reads_iff room (record.view value field)
      (Nat.le_trans (depth_field_le member) deep)
  rw [ofObject_membersOf]
  constructor
  · intro fields number inside
    obtain ⟨field, member, inField⟩ := List.mem_flatMap.mp inside
    cases written : record.isWritten value field with
    | true => exact (part field member).mp ((fields field member).1 written) number inField
    | false =>
        rw [faithful.plain field _ (.inl ((fields field member).2 written))] at inField
        cases inField
  · intro back field member
    refine ⟨fun _ => (part field member).mpr fun number inside => ?_, ?_⟩
    · exact back number (mem_doubles member inside)
    · exact faithful.absent_of_unwritten value field member

/-! ### Doubles of what was read -/

/-- Whether the values of a draft have none but finite doubles. -/
def IsFiniteDraft (draft : record.Draft) : Prop :=
  ∀ field value, draft field = some value →
    ∀ number ∈ (faithful.parts field).doubles value, number.isFinite = true

theorem isFiniteDraft_blank : IsFiniteDraft record.blank := by
  rintro field value ⟨⟩

theorem IsFiniteDraft.put {draft : record.Draft} (finite : IsFiniteDraft draft)
    {field : record.Field} {value : record.Value field}
    (finiteValue : ∀ number ∈ (faithful.parts field).doubles value, number.isFinite = true) :
    IsFiniteDraft (record.put draft field value) := by
  intro other found placed
  by_cases same : field = other
  · subst same
    rw [put_same] at placed
    rw [← Option.some.inj placed]
    exact finiteValue
  · rw [put_other draft same] at placed
    exact finite other found placed

theorem isFiniteDraft_readMembers {room : Nat} {members : List (Option String × Json)}
    {draft result : record.Draft} (finite : IsFiniteDraft draft)
    (read : record.readMembers room draft members = .ok result) : IsFiniteDraft result := by
  induction members generalizing draft with
  | nil =>
      rw [← Except.ok.inj read]
      exact finite
  | cons member members inductionHypothesis =>
      obtain ⟨key, tree⟩ := member
      cases key with
      | none => cases read
      | some key =>
          rw [readMembers] at read
          split at read
          next unknown =>
            split at read
            next => exact inductionHypothesis finite read
            next => cases read
          next field known =>
            split at read
            next => cases read
            next =>
              obtain ⟨value, decoded, rest⟩ := bind_eq_ok.mp read
              refine inductionHypothesis (finite.put ?_) rest
              exact (faithful.parts field).finite room tree value decoded

theorem isFiniteDraft_readItems {room : Nat} {fields : List record.Field} {items : List Json}
    {ending : Ending} {draft result : record.Draft} (finite : IsFiniteDraft draft)
    (read : record.readItems room draft fields items ending = .ok result) :
    IsFiniteDraft result := by
  induction fields generalizing items draft with
  | nil =>
      cases items with
      | nil =>
          cases ending with
          | closed =>
              rw [← Except.ok.inj read]
              exact finite
          | cut => cases read
      | cons => cases read
  | cons field fields inductionHypothesis =>
      cases items with
      | cons item items =>
          obtain ⟨value, decoded, rest⟩ := bind_eq_ok.mp read
          refine inductionHypothesis (finite.put ?_) rest
          exact (faithful.parts field).finite room item value decoded
      | nil =>
          cases ending with
          | cut => cases read
          | closed =>
              rw [readItems] at read
              split at read
              next value unsent =>
                refine inductionHypothesis (finite.put ?_) read
                rw [faithful.plain field value (.inr unsent)]
                rintro number ⟨⟩
              next => cases read

theorem isFinite_finish {draft : record.Draft} (finite : IsFiniteDraft draft) {value : α}
    (finished : record.finish draft = .ok value) :
    ∀ number ∈ record.doubles value, number.isFinite = true := by
  intro number inside
  obtain ⟨field, member, inField⟩ := List.mem_flatMap.mp inside
  have placed := (finish_eq_ok draft).mp finished field member
  cases given : draft field with
  | some value =>
      rw [given, Option.some_or] at placed
      rw [← Option.some.inj placed] at inField
      exact finite field value given number inField
  | none =>
      rw [given, Option.none_or] at placed
      rw [faithful.plain field _ (.inl placed)] at inField
      cases inField

theorem isFinite_ofObject {room : Nat} {members : List (Option String × Json)} {ending : Ending}
    {value : α} (read : record.ofObject room members ending = .ok value) :
    ∀ number ∈ record.doubles value, number.isFinite = true := by
  obtain ⟨draft, drafted, rest⟩ := bind_eq_ok.mp read
  cases ending with
  | cut => cases rest
  | closed =>
      exact isFinite_finish (isFiniteDraft_readMembers isFiniteDraft_blank drafted) rest

theorem isFinite_ofArray {room : Nat} {items : List Json} {ending : Ending} {value : α}
    (read : record.ofArray room items ending = .ok value) :
    ∀ number ∈ record.doubles value, number.isFinite = true := by
  obtain ⟨draft, drafted, finished⟩ := bind_eq_ok.mp read
  exact isFinite_finish (isFiniteDraft_readItems isFiniteDraft_blank drafted) finished

/-! ### The written form -/

theorem map_members (record : Record α) (value : α) :
    ((record.members value).map fun member => (some member.1, member.2)) =
      record.membersOf value (record.fields.filter (record.isWritten value)) := by
  simp only [members, membersOf, List.map_map]
  rfl

theorem encode_toWire (record : Record α) (value : α) :
    record.toWire.encode value =
      .object (record.membersOf value (record.fields.filter (record.isWritten value)))
        .closed := by
  rw [← map_members]
  rfl

theorem isPrintable_membersOf (value : α) (fields : List record.Field) :
    ∀ member ∈ record.membersOf value fields,
      member.1.isSome = true ∧ member.2.IsPrintable := by
  unfold membersOf
  rw [List.forall_mem_map]
  exact fun field _ => ⟨rfl, (faithful.parts field).printable _⟩

theorem isReadable_membersOf {room : Nat} {value : α} (deep : record.depth ≤ room)
    (back : ∀ number ∈ record.doubles value, ReadsBack number) :
    ∀ member ∈ record.membersOf value (record.fields.filter (record.isWritten value)),
      member.1.isSome = true ∧ member.2.isReadable room = true := by
  unfold membersOf
  rw [List.forall_mem_map]
  intro field inside
  have known := (List.mem_filter.mp inside).1
  refine ⟨rfl, (faithful.parts field).readable room _ ?_ ?_⟩
  · exact Nat.le_trans (depth_field_le known) deep
  · exact fun number inField => back number (mem_doubles known inField)

/-- Records with faithful descriptions are faithful. -/
@[reducible] def toFaithful (record : Record α) [faithful : record.IsFaithful] :
    @Faithful α record.toWire :=
  letI := record.toWire
  { doubles := record.doubles
    depth := record.depth + 1
    printable := by
      intro value
      show (record.toWire.encode value).IsPrintable
      rw [encode_toWire]
      exact ⟨rfl, (membersArePrintable_iff _).mpr (isPrintable_membersOf value _)⟩
    readable := by
      intro room value deep back
      obtain ⟨room, rfl⟩ : ∃ inner, room = inner + 1 := ⟨room - 1, by omega⟩
      show (record.toWire.encode value).isReadable (room + 1) = true
      rw [encode_toWire, isReadable, decide_eq_true rfl, Bool.true_and, membersAreReadable_iff]
      exact isReadable_membersOf (Nat.le_of_succ_le_succ deep) back
    reads_iff := by
      intro room value deep
      obtain ⟨room, rfl⟩ : ∃ inner, room = inner + 1 := ⟨room - 1, by omega⟩
      show record.toWire.decode (room + 1) (record.toWire.encode value) = .ok value ↔ _
      rw [encode_toWire]
      exact ofObject_membersOf_self (Nat.le_of_succ_le_succ deep)
    finite := by
      intro room tree value decoded
      cases tree with
      | object members ending =>
          cases room with
          | zero => cases decoded
          | succ room => exact isFinite_ofObject decoded
      | array items ending =>
          cases room with
          | zero => cases decoded
          | succ room => exact isFinite_ofArray decoded
      | null | bool | number | string | broken => cases decoded }

end Record

end Depot.Wire
