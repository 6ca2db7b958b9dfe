import Depot.Proofs.Json.Numerals
import Depot.Proofs.Json.Quoted

/-!
Contract: documents are read as they were written.

A tree that was made, not read from a broken text, is printed as a text whose reading is the
tree again. The proof follows the tree: the text of a part is followed by a comma, a bracket
or nothing, and each of these ends the part. Two units of fuel for every character of the
text are enough, since every level of the tree and every item has characters of its own.

Owns: printable trees, and their texts read back.
Does not own: what trees stand for (`Depot.Proofs.Wire.Faithful`).
-/

namespace Depot.Json

open Depot.Text

/-! ### Printable trees -/

mutual

/-- Whether the tree says nothing about a text that could not be read. -/
def IsPrintable : Json → Prop
  | .null | .bool _ => True
  | .number numeral => numeral.IsWritten
  | .string text => text.isSome = true
  | .array items ending => ending = .closed ∧ ArePrintable items
  | .object members ending => ending = .closed ∧ MembersArePrintable members
  | .broken => False

/-- `IsPrintable` for each item. -/
def ArePrintable : List Json → Prop
  | [] => True
  | item :: items => IsPrintable item ∧ ArePrintable items

/-- `IsPrintable` for each member. -/
def MembersArePrintable : List (Option String × Json) → Prop
  | [] => True
  | (key, value) :: members =>
      key.isSome = true ∧ IsPrintable value ∧ MembersArePrintable members

end

theorem arePrintable_iff : ∀ items : List Json,
    ArePrintable items ↔ ∀ item ∈ items, item.IsPrintable
  | [] => by simp [ArePrintable]
  | item :: items => by simp [ArePrintable, arePrintable_iff items]

theorem membersArePrintable_iff : ∀ members : List (Option String × Json),
    MembersArePrintable members ↔
      ∀ member ∈ members, member.1.isSome = true ∧ member.2.IsPrintable
  | [] => by simp [MembersArePrintable]
  | (key, value) :: members => by
      simp [MembersArePrintable, membersArePrintable_iff members, and_assoc]

theorem isPrintable_ofList (items : List Json) :
    (ofList items).IsPrintable ↔ ∀ item ∈ items, item.IsPrintable := by
  simp [ofList, IsPrintable, arePrintable_iff]

/-! ### The first character -/

/-- The text begins with a token that is no closing bracket. -/
def Begins (text : List Char) : Prop :=
  ∃ character rest, text = character :: rest ∧ isSpace character = false ∧
    character ≠ ']' ∧ character ≠ '}'

theorem Begins.append {text : List Char} (begins : Begins text) (rest : List Char) :
    Begins (text ++ rest) := by
  obtain ⟨character, others, rfl, solid⟩ := begins
  exact ⟨character, others ++ rest, rfl, solid⟩

theorem Begins.skipSpace {text : List Char} (begins : Begins text) :
    skipSpace text = text := by
  obtain ⟨character, others, rfl, solid, -⟩ := begins
  simp [Json.skipSpace, solid]

theorem Begins.length_pos {text : List Char} (begins : Begins text) : 0 < text.length := by
  obtain ⟨character, others, rfl, -⟩ := begins
  exact Nat.succ_pos _

/-- A numeral begins with a minus sign or a digit. -/
theorem begins_numeral (numeral : Numeral) : ∃ character rest, numeral.text = character :: rest ∧
    (character = '-' ∨ isDigit character = true) := by
  rw [Numeral.text_eq]
  cases numeral.negative with
  | true => exact ⟨'-', _, rfl, .inl rfl⟩
  | false =>
      have digits := forall_mem_natText numeral.whole
      cases written : natText numeral.whole with
      | nil => exact absurd written (natText_ne_nil _)
      | cons first others =>
          rw [written] at digits
          exact ⟨first, _, rfl, .inr (digits first List.mem_cons_self)⟩

/-- No digit, and no minus sign, begins anything but a numeral. -/
theorem numeral_begins {character : Char} (begins : character = '-' ∨ isDigit character = true) :
    isSpace character = false ∧ character ≠ ']' ∧ character ≠ '}' ∧ character ≠ '[' ∧
      character ≠ '{' ∧ character ≠ 'n' ∧ character ≠ 't' ∧ character ≠ 'f' ∧
      character ≠ '"' := by
  rcases begins with rfl | digit
  · decide
  · refine ⟨?_, ?_, ?_, ?_, ?_, ?_, ?_, ?_, ?_⟩
    · simp only [isSpace, Bool.or_eq_false_iff, decide_eq_false_iff_not]
      refine ⟨⟨⟨?_, ?_⟩, ?_⟩, ?_⟩ <;> (rintro rfl; cases digit)
    all_goals rintro rfl; cases digit

theorem begins_print (tree : Json) : Begins tree.print := by
  cases tree with
  | null => exact ⟨'n', _, rfl, by decide⟩
  | bool value => cases value <;> exact ⟨_, _, rfl, by decide⟩
  | number numeral =>
      obtain ⟨character, rest, text, begins⟩ := begins_numeral numeral
      obtain ⟨solid, notBracket, notBrace, -⟩ := numeral_begins begins
      exact ⟨character, rest, text, solid, notBracket, notBrace⟩
  | string text => cases text <;> exact ⟨_, _, rfl, by decide⟩
  | array items ending => exact ⟨'[', _, rfl, by decide⟩
  | object members ending => exact ⟨'{', _, rfl, by decide⟩
  | broken => exact ⟨'n', _, rfl, by decide⟩

/-! ### Scalars -/

theorem readFrom_scalar (fuel : Nat) {character : Char} {rest : List Char}
    (solid : isSpace character = false) (notArray : character ≠ '[')
    (notObject : character ≠ '{') :
    readFrom (fuel + 1) (character :: rest) = readScalar (character :: rest) := by
  have begins : skipSpace (character :: rest) = character :: rest := by simp [skipSpace, solid]
  rw [readFrom, begins]
  split
  next same => exact absurd (List.cons.inj same).1 notArray
  next same => exact absurd (List.cons.inj same).1 notObject
  next => rfl

theorem readScalar_numeral {numeral : Numeral} (written : numeral.IsWritten) {rest : List Char}
    (stops : Stops rest) :
    readScalar (numeral.text ++ rest) = (.number numeral, some rest) := by
  obtain ⟨character, others, text, begins⟩ := begins_numeral numeral
  obtain ⟨-, -, -, -, -, notNull, notTrue, notFalse, notQuote⟩ := numeral_begins begins
  have read := Numeral.readNumeral?_text written stops
  rw [text, List.cons_append] at read ⊢
  unfold readScalar
  split
  next same => exact absurd (List.cons.inj same).1 notNull
  next same => exact absurd (List.cons.inj same).1 notTrue
  next same => exact absurd (List.cons.inj same).1 notFalse
  next same => exact absurd (List.cons.inj same).1 notQuote
  next => rw [read]

theorem readScalar_quoted (text : String) (rest : List Char) :
    readScalar (quoted text ++ rest) = (.string (some text), some rest) := by
  show readScalar ('"' :: (text.toList.flatMap escaped ++ ['"'] ++ rest)) = _
  rw [List.append_assoc, List.singleton_append, readScalar, readQuoted?_text]
  simp

/-! ### Containers -/

section Containers

variable {fuel : Nat} {text further rest : List Char}

theorem readFrom_array {items : List Json} (begins : Begins text)
    (read : readItems fuel (text ++ ']' :: rest) = (items, some rest)) :
    readFrom (fuel + 1) ('[' :: (text ++ ']' :: rest)) = (.array items .closed, some rest) := by
  have inside := begins.append (']' :: rest)
  have skipped : skipSpace ('[' :: (text ++ ']' :: rest)) = '[' :: (text ++ ']' :: rest) := rfl
  rw [readFrom, skipped]
  simp only [inside.skipSpace]
  obtain ⟨character, others, same, -, notBracket, -⟩ := inside
  rw [same] at read ⊢
  split
  next close => exact absurd (List.cons.inj close).1 notBracket
  next => rw [read]; rfl

theorem readFrom_object {members : List (Option String × Json)} (begins : Begins text)
    (read : readMembers fuel (text ++ '}' :: rest) = (members, some rest)) :
    readFrom (fuel + 1) ('{' :: (text ++ '}' :: rest)) = (.object members .closed, some rest) := by
  have inside := begins.append ('}' :: rest)
  have skipped : skipSpace ('{' :: (text ++ '}' :: rest)) = '{' :: (text ++ '}' :: rest) := rfl
  rw [readFrom, skipped]
  simp only [inside.skipSpace]
  obtain ⟨character, others, same, -, -, notBrace⟩ := inside
  rw [same] at read ⊢
  split
  next close => exact absurd (List.cons.inj close).1 notBrace
  next => rw [read]; rfl

theorem readItems_last {item : Json} (read : readFrom fuel text = (item, some (']' :: rest))) :
    readItems (fuel + 1) text = ([item], some rest) := by
  have skipped : skipSpace (']' :: rest) = ']' :: rest := rfl
  rw [readItems, read]
  simp only [skipped]

theorem readItems_more {item : Json} (read : readFrom fuel text = (item, some (',' :: further))) :
    readItems (fuel + 1) text =
      (item :: (readItems fuel further).1, (readItems fuel further).2) := by
  have skipped : skipSpace (',' :: further) = ',' :: further := rfl
  rw [readItems, read]
  simp only [skipped]

theorem quoted_append (key : String) (rest : List Char) :
    quoted key ++ rest = '"' :: (key.toList.flatMap escaped ++ '"' :: rest) := by
  simp [quoted]

theorem readMembers_last {value : Json} (key : String)
    (read : readFrom fuel text = (value, some ('}' :: rest))) :
    readMembers (fuel + 1) (quoted key ++ ':' :: text) = ([(some key, value)], some rest) := by
  have opened : ∀ others, skipSpace ('"' :: others) = '"' :: others := fun _ => rfl
  have named : skipSpace (':' :: text) = ':' :: text := rfl
  have closed : skipSpace ('}' :: rest) = '}' :: rest := rfl
  rw [quoted_append, readMembers, opened]
  simp only [readQuoted?_text, named, read, closed, Option.map_some, String.ofList_toList]

theorem readMembers_more {value : Json} (key : String)
    (read : readFrom fuel text = (value, some (',' :: further))) :
    readMembers (fuel + 1) (quoted key ++ ':' :: text) =
      ((some key, value) :: (readMembers fuel further).1, (readMembers fuel further).2) := by
  have opened : ∀ others, skipSpace ('"' :: others) = '"' :: others := fun _ => rfl
  have named : skipSpace (':' :: text) = ':' :: text := rfl
  have next : skipSpace (',' :: further) = ',' :: further := rfl
  rw [quoted_append, readMembers, opened]
  simp only [readQuoted?_text, named, read, next, Option.map_some, String.ofList_toList]

end Containers

theorem begins_printItems (item : Json) (items : List Json) :
    Begins (printItems (item :: items)) := by
  cases items with
  | nil => exact begins_print item
  | cons next items => exact (begins_print item).append _

theorem begins_printMembers (member : Option String × Json)
    (members : List (Option String × Json)) : Begins (printMembers (member :: members)) := by
  cases members with
  | nil => exact ⟨'"', _, rfl, by decide⟩
  | cons next members => exact ⟨'"', _, rfl, by decide⟩

/-! ### Trees -/

mutual

/-- A tree is read back from its text, and what follows the text is left. -/
theorem readFrom_print : ∀ (tree : Json), tree.IsPrintable → ∀ (fuel : Nat) (rest : List Char),
    2 * tree.print.length ≤ fuel → Stops rest →
    readFrom fuel (tree.print ++ rest) = (tree, some rest)
  | tree, printable, 0, rest, enough, stops => by
      have some := (begins_print tree).length_pos
      omega
  | .null, printable, fuel + 1, rest, enough, stops =>
      readFrom_scalar fuel (by decide) (by decide) (by decide)
  | .bool true, printable, fuel + 1, rest, enough, stops =>
      readFrom_scalar fuel (by decide) (by decide) (by decide)
  | .bool false, printable, fuel + 1, rest, enough, stops =>
      readFrom_scalar fuel (by decide) (by decide) (by decide)
  | .number numeral, printable, fuel + 1, rest, enough, stops => by
      obtain ⟨character, others, text, begins⟩ := begins_numeral numeral
      obtain ⟨solid, -, -, notArray, notObject, -⟩ := numeral_begins begins
      have read := readScalar_numeral printable stops
      rw [print]
      rw [text, List.cons_append] at read ⊢
      rw [readFrom_scalar fuel solid notArray notObject, read]
  | .string none, printable, fuel + 1, rest, enough, stops => by cases printable
  | .string (some text), printable, fuel + 1, rest, enough, stops => by
      have read := readScalar_quoted text rest
      rw [← read]
      exact readFrom_scalar fuel (by decide) (by decide) (by decide)
  | .array [] ending, printable, fuel + 1, rest, enough, stops => by
      obtain ⟨rfl, -⟩ := printable
      rfl
  | .array (item :: items) ending, printable, fuel + 1, rest, enough, stops => by
      obtain ⟨rfl, printable⟩ := printable
      have length : (print (.array (item :: items) .closed)).length =
          (printItems (item :: items)).length + 2 := by simp [print]
      have text : print (.array (item :: items) .closed) ++ rest =
          '[' :: (printItems (item :: items) ++ ']' :: rest) := by simp [print]
      rw [text]
      refine readFrom_array (begins_printItems item items) ?_
      exact readItems_print item items printable fuel rest (by omega)
  | .object [] ending, printable, fuel + 1, rest, enough, stops => by
      obtain ⟨rfl, -⟩ := printable
      rfl
  | .object (member :: members) ending, printable, fuel + 1, rest, enough, stops => by
      obtain ⟨rfl, printable⟩ := printable
      have length : (print (.object (member :: members) .closed)).length =
          (printMembers (member :: members)).length + 2 := by simp [print]
      have text : print (.object (member :: members) .closed) ++ rest =
          '{' :: (printMembers (member :: members) ++ '}' :: rest) := by simp [print]
      rw [text]
      refine readFrom_object (begins_printMembers member members) ?_
      exact readMembers_print member members printable fuel rest (by omega)
  | .broken, printable, fuel + 1, rest, enough, stops => by cases printable

theorem readItems_print : ∀ (item : Json) (items : List Json), ArePrintable (item :: items) →
    ∀ (fuel : Nat) (rest : List Char), 2 * (printItems (item :: items)).length + 1 ≤ fuel →
    readItems fuel (printItems (item :: items) ++ ']' :: rest) = (item :: items, some rest)
  | item, [], printable, fuel + 1, rest, enough => by
      have stops : Stops (']' :: rest) := stops_cons (by decide) rest
      rw [printItems] at enough ⊢
      exact readItems_last
        (readFrom_print item printable.1 fuel (']' :: rest) (by omega) stops)
  | item, next :: items, printable, fuel + 1, rest, enough => by
      have stops := stops_cons (by decide : ',' = ',' ∨ ',' = ']' ∨ ',' = '}')
        (printItems (next :: items) ++ ']' :: rest)
      have some := (begins_print item).length_pos
      have text : printItems (item :: next :: items) ++ ']' :: rest =
          item.print ++ ',' :: (printItems (next :: items) ++ ']' :: rest) := by
        simp [printItems]
      have length : (printItems (item :: next :: items)).length =
          item.print.length + (printItems (next :: items)).length + 1 := by
        simp [printItems]
        omega
      have others := readItems_print next items printable.2 fuel rest (by omega)
      have more := readItems_more
        (readFrom_print item printable.1 fuel _ (by omega) stops)
      rw [text, more, others]

theorem readMembers_print : ∀ (member : Option String × Json)
    (members : List (Option String × Json)), MembersArePrintable (member :: members) →
    ∀ (fuel : Nat) (rest : List Char), 2 * (printMembers (member :: members)).length + 1 ≤ fuel →
    readMembers fuel (printMembers (member :: members) ++ '}' :: rest) =
      (member :: members, some rest)
  | (none, value), members, printable, fuel, rest, enough => by cases printable.1
  | (some key, value), [], printable, fuel + 1, rest, enough => by
      have stops : Stops ('}' :: rest) := stops_cons (by decide) rest
      have text : printMembers [(some key, value)] ++ '}' :: rest =
          quoted key ++ ':' :: (value.print ++ '}' :: rest) := by simp [printMembers]
      have length : value.print.length ≤ (printMembers [(some key, value)]).length := by
        simp [printMembers]
        omega
      rw [text]
      exact readMembers_last key
        (readFrom_print value printable.2.1 fuel ('}' :: rest) (by omega) stops)
  | (some key, value), next :: members, printable, fuel + 1, rest, enough => by
      have stops := stops_cons (by decide : ',' = ',' ∨ ',' = ']' ∨ ',' = '}')
        (printMembers (next :: members) ++ '}' :: rest)
      have text : printMembers ((some key, value) :: next :: members) ++ '}' :: rest =
          quoted key ++ ':' ::
            (value.print ++ ',' :: (printMembers (next :: members) ++ '}' :: rest)) := by
        simp [printMembers]
      have length : value.print.length + (printMembers (next :: members)).length + 2 ≤
          (printMembers ((some key, value) :: next :: members)).length := by
        simp [printMembers]
        omega
      have others := readMembers_print next members printable.2.2 fuel rest (by omega)
      have more := readMembers_more key
        (readFrom_print value printable.2.1 fuel _ (by omega) stops)
      rw [text, more, others]

end

/-! ### Documents -/

theorem take_text {tree : Json} (printable : tree.IsPrintable) :
    take tree.print = (tree, some []) := by
  have read := readFrom_print tree printable (2 * tree.print.length + 2) [] (by omega) stops_nil
  rw [List.append_nil] at read
  exact read

/-- A document is read back from its text. -/
theorem read_text {tree : Json} (printable : tree.IsPrintable) : read tree.text = tree := by
  rw [read, text, String.toList_ofList, take_text printable]
  rfl

/-- A reader that does not care for the end of the text reads the same. -/
theorem beginning_text {tree : Json} (printable : tree.IsPrintable) :
    beginning tree.text = tree := by
  rw [beginning, text, String.toList_ofList, take_text printable]

end Depot.Json
