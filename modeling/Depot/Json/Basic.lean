import Depot.Json.Numeral

/-!
Contract: what a JSON text says, as far as it can be read.

`Json` is the tree of a document. A text that stops making sense leaves a tree
as well: the place where it does so is `broken`, and the containers around that
place end `cut` in place of `closed`. So a reader of values meets the troubles
of a text in the order in which they stand there.

A string in which half of a surrogate pair is missing has no characters; it can
be skipped but not read.

Owns: the tree and what it means for a tree to be sound.
Does not own: reading (`Depot.Json.Reader`) and writing (`Depot.Json.Printer`).
-/

namespace Depot

/-- How the list of an array's items or an object's members ends. -/
inductive Json.Ending where
  | closed
  | cut
deriving DecidableEq, Repr

/-- The tree of a JSON text. -/
inductive Json where
  | null
  | bool (value : Bool)
  | number (numeral : Json.Numeral)
  | string (text : Option String)
  | array (items : List Json) (ending : Json.Ending)
  | object (members : List (Option String × Json)) (ending : Json.Ending)
  | broken

namespace Json

instance : Inhabited Json := ⟨.null⟩

def ofString (text : String) : Json := .string (some text)

def ofInt (value : Int) : Json := .number (.ofInt value)

def ofNat (value : Nat) : Json := .number (.ofInt value)

/-- The tree of a double; infinities and NaN are written as null. -/
def ofBinary64 (number : Decimal.Binary64) : Json :=
  if number.isFinite then .number (.ofBinary64 number) else .null

def ofList (items : List Json) : Json := .array items .closed

def ofMembers (members : List (String × Json)) : Json :=
  .object (members.map fun member => (some member.1, member.2)) .closed

mutual

/-- Whether the text could be read to the end of this value, skipping over it. -/
def isWhole : Json → Bool
  | .array items ending => ending = .closed && areWhole items
  | .object members ending => ending = .closed && membersAreWhole members
  | .broken => false
  | _ => true

def areWhole : List Json → Bool
  | [] => true
  | item :: items => isWhole item && areWhole items

def membersAreWhole : List (Option String × Json) → Bool
  | [] => true
  | (_, value) :: members => isWhole value && membersAreWhole members

end

mutual

/-- Whether every part of the value can be read: nothing is broken, no string or
key lacks characters, no number is too large, and containers are nested at most
`depth` deep. -/
def isReadable (depth : Nat) : Json → Bool
  | .array items ending =>
      match depth with
      | 0 => false
      | depth + 1 => ending = .closed && areReadable depth items
  | .object members ending =>
      match depth with
      | 0 => false
      | depth + 1 => ending = .closed && membersAreReadable depth members
  | .broken => false
  | .string text => text.isSome
  | .number numeral => numeral.value != .tooLarge
  | .null | .bool _ => true

def areReadable (depth : Nat) : List Json → Bool
  | [] => true
  | item :: items => isReadable depth item && areReadable depth items

def membersAreReadable (depth : Nat) : List (Option String × Json) → Bool
  | [] => true
  | (key, value) :: members =>
      key.isSome && isReadable depth value && membersAreReadable depth members

end

end Json

end Depot
