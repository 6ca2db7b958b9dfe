import Depot.Proofs.Calendar.Documents
import Depot.Proofs.Database.Reading
import Depot.Proofs.Decimal.Finite
import Depot.Proofs.Json.Trees
import Depot.Wire.Basic

/-!
Contract: what it means that a written form is faithful.

A written form is faithful if the tree of a value can be printed and read back, and reading
it gives the value again exactly if its doubles survive. Not every double does: a document's
digits are scaled by powers of ten in double arithmetic. Whatever tree a value was read from,
its doubles are finite, so that nothing else is asked of them.

Owns: the class, and the faithful forms of leaves, lists, options and words.
Does not own: records with named fields (`Depot.Proofs.Wire.Records`).
-/

namespace Depot.Wire

open Database (bind_eq_ok)
open Decimal Json

/-- Whether the double is what its text is read as. -/
def ReadsBack (number : Binary64) : Prop :=
  read Binary64 (write number) = .ok number

instance {α : Type} [DecidableEq α] (found : Except Fault α) (value : α) :
    Decidable (found = .ok value) :=
  match found with
  | .ok other => decidable_of_iff (other = value) (by rw [Except.ok.injEq])
  | .error _ => isFalse nofun

instance (number : Binary64) : Decidable (ReadsBack number) :=
  inferInstanceAs (Decidable (read Binary64 (write number) = .ok number))

/-- Values that are read as they were written exactly if their doubles are. -/
class Faithful (α : Type) [Wire α] where
  /-- The doubles in a value. -/
  doubles : α → List Binary64
  /-- The levels to which the containers of a written value may nest. -/
  depth : Nat
  printable : ∀ value : α, (encode value).IsPrintable
  readable : ∀ (room : Nat) (value : α), depth ≤ room →
    (∀ number ∈ doubles value, ReadsBack number) → (encode value).isReadable room = true
  reads_iff : ∀ (room : Nat) (value : α), depth ≤ room →
    (decode room (encode value) = .ok value ↔ ∀ number ∈ doubles value, ReadsBack number)
  finite : ∀ (room : Nat) (tree : Json) (value : α), decode room tree = .ok value →
    ∀ number ∈ doubles value, number.isFinite = true

namespace Faithful

variable {α : Type} [Wire α] [Faithful α]

theorem read_write_eq (value : α) :
    read α (write value) = decode wholeRoom (encode value) := by
  rw [read, write, read_text (printable value)]

/-- A value is read from the text that it is written as. -/
theorem read_write (value : α) (shallow : depth α ≤ wholeRoom)
    (back : ∀ number ∈ doubles value, ReadsBack number) :
    read α (write value) = .ok value := by
  rw [read_write_eq]
  exact (reads_iff wholeRoom value shallow).mpr back

/-- A value is read from the text that it is written as, also where other text may follow. -/
theorem readBeginning_write (value : α) (shallow : depth α ≤ wholeRoom)
    (back : ∀ number ∈ doubles value, ReadsBack number) :
    readBeginning α (write value) = .ok value := by
  rw [readBeginning, write, beginning_text (printable value)]
  exact (reads_iff wholeRoom value shallow).mpr back

end Faithful

/-- Values without doubles, each of which is read from its own tree. -/
@[reducible] def faithfulPlain {α : Type} [Wire α]
    (printable : ∀ value : α, (encode value).IsPrintable)
    (readable : ∀ (room : Nat) (value : α), (encode value).isReadable room = true)
    (reads : ∀ (room : Nat) (value : α), decode room (encode value) = .ok value) :
    Faithful α where
  doubles _ := []
  depth := 0
  printable := printable
  readable room value _ _ := readable room value
  reads_iff room value _ := by
    rw [reads room value]
    simp
  finite := by
    rintro room tree value - number ⟨⟩

/-! ### Texts -/

/-- The forms that are no more than a text, where every value is read from its own text. -/
@[reducible] def faithfulOfText {α : Type} {text : α → String} {read? : String → Option α}
    (known : ∀ value, read? (text value) = some value) : @Faithful α (ofText text read?) :=
  letI := ofText text read?
  faithfulPlain (fun _ => rfl) (fun _ _ => rfl) fun room value => by
    show (match read? (text value) with
      | some value => Except.ok value
      | none => .error Fault.mismatch) = _
    rw [known]

instance : Faithful String :=
  faithfulPlain (fun _ => rfl) (fun _ _ => rfl) fun _ _ => rfl

instance : Faithful Calendar.Date :=
  faithfulOfText fun date => by
    rw [String.toList_ofList]
    exact Calendar.readDate?_text date

instance : Faithful Calendar.Instant :=
  faithfulOfText fun moment => by
    rw [String.toList_ofList]
    exact Calendar.readInstant?_text moment

/-- The words of an enumeration, where every value is known by its word. -/
@[reducible] def faithfulOfWords {α : Type} {word : α → String} {ofWord? : String → Option α}
    (known : ∀ value, ofWord? (word value) = some value) : @Faithful α (ofWords word ofWord?) :=
  letI := ofWords word ofWord?
  faithfulPlain (fun _ => rfl) (fun _ _ => rfl) fun room value => by
    show (match ofWord? (word value) with
      | some value => Except.ok value
      | none => .error Fault.mismatch) = _
    rw [known]

/-! ### Numbers -/

instance : Faithful Bool :=
  faithfulPlain (fun _ => trivial) (fun _ _ => rfl) fun _ _ => rfl

/-- An integer of at most 64 bits is what its numeral stands for. -/
theorem value_ofInt {value : Int} (least : -2 ^ 63 ≤ value) (greatest : value < 2 ^ 64) :
    (Numeral.ofInt value).value = .integer value := by
  have half : Nat.pow 2 63 = 2 ^ 63 := rfl
  have whole : Nat.pow 2 64 = 2 ^ 64 := rfl
  cases value with
  | ofNat magnitude =>
      have bound : (magnitude : Int) < 2 ^ 64 := greatest
      have fits : magnitude < Nat.pow 2 64 := by omega
      simp [Numeral.ofInt, Numeral.value, fits]
  | negSucc magnitude =>
      have fits : magnitude + 1 ≤ Nat.pow 2 63 := by omega
      simp only [Numeral.ofInt, Numeral.value, Option.isSome_none, Bool.or_self,
        Bool.false_eq_true, ↓reduceIte, Nat.succ_pos, fits, and_self]
      rfl

/-- Integers that fit into 64 bits, read within bounds. -/
theorem decodeInt_ofInt {least greatest value : Int} (small : -2 ^ 63 ≤ value)
    (large : value < 2 ^ 64) (within : least ≤ value ∧ value ≤ greatest) :
    decodeInt least greatest (ofInt value) = .ok value := by
  simp only [decodeInt, ofInt, value_ofInt small large, within, and_self, ↓reduceIte]

theorem isReadable_ofInt (room : Nat) {value : Int} (small : -2 ^ 63 ≤ value)
    (large : value < 2 ^ 64) : (ofInt value).isReadable room = true := by
  simp only [ofInt, isReadable, value_ofInt small large]
  rfl

theorem toInt_bounds (number : Int64) :
    -2 ^ 63 ≤ number.toInt ∧ number.toInt ≤ 2 ^ 63 - 1 :=
  ⟨number.le_toInt, number.toInt_le⟩

instance : Faithful Int64 :=
  faithfulPlain (fun number => Numeral.isWritten_ofInt number.toInt)
    (fun room number => by
      have bounds := toInt_bounds number
      exact isReadable_ofInt room (by omega) (by omega))
    fun room number => by
      have bounds := toInt_bounds number
      show (decodeInt (-2 ^ 63) (2 ^ 63 - 1) (ofInt number.toInt)).map Int64.ofInt = _
      rw [decodeInt_ofInt (by omega) (by omega) bounds]
      exact congrArg Except.ok (Int64.ofInt_toInt number)

instance : Faithful UInt32 :=
  faithfulPlain (fun number => Numeral.isWritten_ofInt number.toNat)
    (fun room number => by
      have fits := number.toNat_lt
      exact isReadable_ofInt room (by omega) (by omega))
    fun room number => by
      have fits := number.toNat_lt
      show (decodeInt 0 (2 ^ 32 - 1) (ofInt number.toNat)).map (fun value =>
        UInt32.ofNat value.toNat) = _
      rw [decodeInt_ofInt (by omega) (by omega) (by omega)]
      exact congrArg Except.ok UInt32.ofNat_toNat

instance : Faithful UInt64 :=
  faithfulPlain (fun number => Numeral.isWritten_ofInt number.toNat)
    (fun room number => by
      have fits := number.toNat_lt
      exact isReadable_ofInt room (by omega) (by omega))
    fun room number => by
      have fits := number.toNat_lt
      show (decodeInt 0 (2 ^ 64 - 1) (ofInt number.toNat)).map (fun value =>
        UInt64.ofNat value.toNat) = _
      rw [decodeInt_ofInt (by omega) (by omega) (by omega)]
      exact congrArg Except.ok UInt64.ofNat_toNat

/-! ### Doubles -/

theorem isPrintable_ofBinary64 (number : Binary64) : (ofBinary64 number).IsPrintable := by
  unfold ofBinary64
  split
  next => exact Numeral.isWritten_ofBinary64 number
  next => trivial

/-- The double that is read from a tree, its text left out. -/
theorem readsBack_iff (number : Binary64) :
    ReadsBack number ↔ decodeDouble (ofBinary64 number) = .ok number := by
  rw [ReadsBack, read, write, show (encode number).text = (ofBinary64 number).text from rfl,
    read_text (isPrintable_ofBinary64 number)]
  rfl

/-- What can be read as a double is a numeral that is not too large. -/
theorem isReadable_of_decodeDouble {tree : Json} {number : Binary64}
    (decoded : decodeDouble tree = .ok number) (room : Nat) : tree.isReadable room = true := by
  unfold decodeDouble at decoded
  split at decoded
  next numeral =>
    split at decoded
    next stands => simp [isReadable, stands]
    next stands => simp [isReadable, stands]
    next => cases decoded
  next => cases decoded

instance : Faithful Binary64 where
  doubles number := [number]
  depth := 0
  printable := isPrintable_ofBinary64
  readable room number _ back :=
    isReadable_of_decodeDouble ((readsBack_iff number).mp (back number List.mem_cons_self)) room
  reads_iff _ number _ := by
    rw [List.forall_mem_singleton]
    exact (readsBack_iff number).symm
  finite := by
    intro room tree value decoded number member
    obtain rfl := List.mem_singleton.mp member
    replace decoded : decodeDouble tree = .ok number := decoded
    unfold decodeDouble at decoded
    split at decoded
    next numeral =>
      split at decoded
      next stands =>
        rw [← Except.ok.inj decoded]
        exact Numeral.isFinite_of_value_integer stands
      next stands =>
        rw [← Except.ok.inj decoded]
        exact Numeral.isFinite_of_value_double stands
      next => cases decoded
    next => cases decoded

/-! ### Options -/

theorem decode_option {α : Type} [Wire α] {room : Nat} {tree : Json} (present : tree ≠ .null) :
    (decode room tree : Except Fault (Option α)) = (decode room tree).map some := by
  cases tree with
  | null => exact absurd rfl present
  | bool | number | string | array | object | broken => rfl

/-- Options of values that are never written as null. -/
@[reducible] def faithfulOption {α : Type} [Wire α] [Faithful α]
    (present : ∀ value : α, encode value ≠ .null) : Faithful (Option α) where
  doubles value := value.elim [] Faithful.doubles
  depth := Faithful.depth α
  printable value := by
    cases value with
    | none => trivial
    | some value => exact Faithful.printable value
  readable room value deep back := by
    cases value with
    | none => rfl
    | some value => exact Faithful.readable room value deep back
  reads_iff room value deep := by
    cases value with
    | none => exact ⟨fun _ => nofun, fun _ => rfl⟩
    | some value =>
        refine Iff.trans ?_ (Faithful.reads_iff room value deep)
        show decode room (encode value) = Except.ok (some value) ↔ _
        rw [decode_option (present value)]
        cases (decode room (encode value) : Except Fault α) with
        | error fault => exact ⟨nofun, nofun⟩
        | ok found => simp [Except.map]
  finite := by
    intro room tree value decoded
    cases value with
    | none => rintro number ⟨⟩
    | some value =>
        refine Faithful.finite room tree value ?_
        have notNull : tree ≠ .null := by
          rintro rfl
          cases decoded
        rw [decode_option notNull] at decoded
        cases read : (decode room tree : Except Fault α) with
        | error fault =>
            rw [read] at decoded
            cases decoded
        | ok other =>
            rw [read] at decoded
            rw [Option.some.inj (Except.ok.inj decoded)]

instance : Faithful (Option String) :=
  faithfulOption fun _ => Json.noConfusion

instance : Faithful (Option Calendar.Date) :=
  faithfulOption fun _ => Json.noConfusion

/-! ### Lists -/

theorem areReadable_iff (room : Nat) : ∀ items : List Json,
    areReadable room items = true ↔ ∀ item ∈ items, item.isReadable room = true
  | [] => by simp [areReadable]
  | item :: items => by simp [areReadable, areReadable_iff room items]

section Lists

variable {α : Type} [Wire α] [Faithful α]

theorem decodeItems_encode (room : Nat) (deep : Faithful.depth α ≤ room) (values : List α) :
    decodeItems (decode room) (values.map encode) .closed = .ok values ↔
      ∀ value ∈ values, ∀ number ∈ Faithful.doubles value, ReadsBack number := by
  induction values with
  | nil => exact ⟨fun _ => nofun, fun _ => rfl⟩
  | cons value values inductionHypothesis =>
      rw [List.forall_mem_cons, ← inductionHypothesis, ← Faithful.reads_iff room value deep,
        List.map_cons, decodeItems]
      constructor
      · intro decoded
        obtain ⟨first, read, decoded⟩ := bind_eq_ok.mp decoded
        obtain ⟨others, readOthers, decoded⟩ := bind_eq_ok.mp decoded
        cases decoded
        exact ⟨read, readOthers⟩
      · rintro ⟨read, readOthers⟩
        exact bind_eq_ok.mpr ⟨value, read, bind_eq_ok.mpr ⟨values, readOthers, rfl⟩⟩

theorem isFinite_of_decodeItems (room : Nat) {items : List Json} {ending : Ending}
    {values : List α} (decoded : decodeItems (decode room) items ending = .ok values) :
    ∀ value ∈ values, ∀ number ∈ Faithful.doubles value, number.isFinite = true := by
  induction items generalizing values with
  | nil =>
      cases ending with
      | closed =>
          cases decoded
          rintro value ⟨⟩
      | cut => cases decoded
  | cons item items inductionHypothesis =>
      rw [decodeItems] at decoded
      obtain ⟨first, read, decoded⟩ := bind_eq_ok.mp decoded
      obtain ⟨others, readOthers, decoded⟩ := bind_eq_ok.mp decoded
      cases decoded
      intro value member
      rcases List.mem_cons.mp member with rfl | later
      · exact Faithful.finite room item value read
      · exact inductionHypothesis readOthers value later

instance : Faithful (List α) where
  doubles values := values.flatMap Faithful.doubles
  depth := Faithful.depth α + 1
  printable values := by
    refine (isPrintable_ofList _).mpr ?_
    rw [List.forall_mem_map]
    exact fun value _ => Faithful.printable value
  readable room values deep back := by
    obtain ⟨room, rfl⟩ : ∃ inner, room = inner + 1 := ⟨room - 1, by omega⟩
    show (decide (Ending.closed = .closed) && areReadable room (values.map encode)) = true
    rw [decide_eq_true rfl, Bool.true_and, areReadable_iff, List.forall_mem_map]
    intro value member
    refine Faithful.readable room value (Nat.le_of_succ_le_succ deep) ?_
    exact fun number inside => back number (List.mem_flatMap.mpr ⟨value, member, inside⟩)
  reads_iff room values deep := by
    obtain ⟨room, rfl⟩ : ∃ inner, room = inner + 1 := ⟨room - 1, by omega⟩
    refine (decodeItems_encode room (Nat.le_of_succ_le_succ deep) values).trans ?_
    simp only [List.mem_flatMap, forall_exists_index, and_imp]
    exact ⟨fun back number value member => back value member number,
      fun back value member number => back number value member⟩
  finite := by
    intro room tree values decoded number member
    obtain ⟨value, inside, there⟩ := List.mem_flatMap.mp member
    cases tree with
    | array items ending =>
        cases room with
        | zero => cases decoded
        | succ room => exact isFinite_of_decodeItems room decoded value inside number there
    | null | bool | number | string | object | broken => cases decoded

end Lists

end Depot.Wire
