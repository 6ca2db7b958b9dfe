import Depot.Json.Basic
import Depot.Text.Split

/-!
Contract: the tree of a text.

`readFrom` takes one value off a text; the rest is absent when the text breaks
inside the value. `read?` is the tree of a whole text, `beginning` the tree at
the start of one, whatever follows.

Owns: the grammar of JSON.
Does not own: what the values mean to a reader (`Depot.Wire`).
-/

namespace Depot.Json

open Depot.Text

/-- The four characters that may stand between tokens. -/
def isSpace (character : Char) : Bool :=
  character = ' ' || character = '\n' || character = '\t' || character = '\r'

def skipSpace (text : List Char) : List Char :=
  text.dropWhile isSpace

def fourHex? (first second third fourth : Char) : Option Nat := do
  let first ← hexValue? first
  let second ← hexValue? second
  let third ← hexValue? third
  let fourth ← hexValue? fourth
  return ((first * 16 + second) * 16 + third) * 16 + fourth

/-- Whether the unit is the first half of a surrogate pair. -/
def isLeading (unit : Nat) : Bool := 0xd800 ≤ unit && unit ≤ 0xdbff

/-- Whether the unit is the second half of a surrogate pair. -/
def isTrailing (unit : Nat) : Bool := 0xdc00 ≤ unit && unit ≤ 0xdfff

def pairChar (leading trailing : Nat) : Char :=
  Char.ofNat (0x10000 + (leading - 0xd800) * 0x400 + (trailing - 0xdc00))

/-- The character that a one-letter escape stands for. -/
def shortEscape? (letter : Char) : Option Char :=
  match letter with
  | '"' => some '"'
  | '\\' => some '\\'
  | '/' => some '/'
  | 'b' => some '\x08'
  | 'f' => some '\x0c'
  | 'n' => some '\n'
  | 'r' => some '\r'
  | 't' => some '\t'
  | _ => none

/-- One character of a text in quotes: written out, or given by number. A number
may be half of a surrogate pair. -/
inductive Piece where
  | plain (character : Char)
  | unit (value : Nat)
deriving DecidableEq, Repr

/-- A text in quotes from after the opening quote on: its pieces, and what
follows the closing quote. -/
def readPieces? : List Char → Option (List Piece × List Char)
  | [] => none
  | '"' :: rest => some ([], rest)
  | '\\' :: 'u' :: first :: second :: third :: fourth :: rest => do
      let unit ← fourHex? first second third fourth
      let (pieces, remaining) ← readPieces? rest
      return (.unit unit :: pieces, remaining)
  | '\\' :: letter :: rest => do
      let character ← shortEscape? letter
      let (pieces, remaining) ← readPieces? rest
      return (.plain character :: pieces, remaining)
  | character :: rest =>
      if character.toNat < 0x20 || character = '\\' then none
      else do
        let (pieces, remaining) ← readPieces? rest
        return (.plain character :: pieces, remaining)

/-- The characters of pieces, unless half of a surrogate pair is missing. -/
def joined? : List Piece → Option (List Char)
  | [] => some []
  | .plain character :: rest => (joined? rest).map (character :: ·)
  | .unit leading :: .unit trailing :: rest =>
      if isLeading leading then
        if isTrailing trailing then (joined? rest).map (pairChar leading trailing :: ·)
        else none
      else if isTrailing leading then none
      else (joined? (.unit trailing :: rest)).map (Char.ofNat leading :: ·)
  | .unit unit :: rest =>
      if isLeading unit || isTrailing unit then none
      else (joined? rest).map (Char.ofNat unit :: ·)

/-- A text in quotes from after the opening quote on: its characters, absent
where half of a surrogate pair is missing, and what follows the closing quote. -/
def readQuoted? (text : List Char) : Option (Option (List Char) × List Char) :=
  (readPieces? text).map fun read => (joined? read.1, read.2)

/-- The exponent of a numeral, if one follows; absent when it breaks off. -/
def readExponent? (text : List Char) : Option (Option Int × List Char) :=
  match text with
  | mark :: rest =>
      if mark = 'e' || mark = 'E' then
        let (sign, digitsText) : Int × List Char :=
          match rest with
          | '+' :: further => (1, further)
          | '-' :: further => (-1, further)
          | _ => (1, rest)
        let digits := digitsText.takeWhile isDigit
        if digits.isEmpty then none
        else some (some (sign * (digitsValue digits : Int)), digitsText.dropWhile isDigit)
      else some (none, text)
  | [] => some (none, [])

/-- The digits after a point, if one follows; absent when it breaks off. -/
def readFraction? (text : List Char) : Option (Option (List Char) × List Char) :=
  match text with
  | '.' :: rest =>
      let digits := rest.takeWhile isDigit
      if digits.isEmpty then none
      else some (some digits, rest.dropWhile isDigit)
  | _ => some (none, text)

/-- A numeral without its sign. The whole part has no leading zeros. -/
def readUnsigned? (negative : Bool) (text : List Char) : Option (Numeral × List Char) :=
  let digits := text.takeWhile isDigit
  if digits.isEmpty || (digits.head? = some '0' && 1 < digits.length) then none
  else do
    let (fraction, rest) ← readFraction? (text.dropWhile isDigit)
    let (exponent, rest) ← readExponent? rest
    return (⟨negative, digitsValue digits, fraction, exponent⟩, rest)

def readNumeral? (text : List Char) : Option (Numeral × List Char) :=
  match text with
  | '-' :: rest => readUnsigned? true rest
  | _ => readUnsigned? false text

/-- A value and what follows it; nothing follows where the text breaks. -/
abbrev Taken := Json × Option (List Char)

def readWord (word : String) (value : Json) (text : List Char) : Taken :=
  match rest? word.toList text with
  | some rest => (value, some rest)
  | none => (.broken, none)

/-- A value that is neither an array nor an object. -/
def readScalar (text : List Char) : Taken :=
  match text with
  | 'n' :: _ => readWord "null" .null text
  | 't' :: _ => readWord "true" (.bool true) text
  | 'f' :: _ => readWord "false" (.bool false) text
  | '"' :: rest =>
      match readQuoted? rest with
      | some (characters, rest) => (.string (characters.map String.ofList), some rest)
      | none => (.broken, none)
  | _ =>
      match readNumeral? text with
      | some (numeral, rest) => (.number numeral, some rest)
      | none => (.broken, none)

/-- How a list ends for which something follows or not. -/
def endingOf (rest : Option (List Char)) : Ending :=
  if rest.isSome then .closed else .cut

mutual

/-- The value at the start of a text. The fuel bounds the number of tokens. -/
def readFrom (fuel : Nat) (text : List Char) : Taken :=
  match fuel with
  | 0 => (.broken, none)
  | fuel + 1 =>
      match skipSpace text with
      | '[' :: rest =>
          match skipSpace rest with
          | ']' :: further => (.array [] .closed, some further)
          | further =>
              let (items, remaining) := readItems fuel further
              (.array items (endingOf remaining), remaining)
      | '{' :: rest =>
          match skipSpace rest with
          | '}' :: further => (.object [] .closed, some further)
          | further =>
              let (members, remaining) := readMembers fuel further
              (.object members (endingOf remaining), remaining)
      | scalar => readScalar scalar

/-- The items of an array from the first one on, and what follows the bracket. -/
def readItems (fuel : Nat) (text : List Char) : List Json × Option (List Char) :=
  match fuel with
  | 0 => ([], none)
  | fuel + 1 =>
      match readFrom fuel text with
      | (item, none) => ([item], none)
      | (item, some rest) =>
          match skipSpace rest with
          | ']' :: further => ([item], some further)
          | ',' :: further =>
              let (items, remaining) := readItems fuel further
              (item :: items, remaining)
          | _ => ([item], none)

/-- The members of an object from the first one on, and what follows the brace. -/
def readMembers (fuel : Nat) (text : List Char) :
    List (Option String × Json) × Option (List Char) :=
  match fuel with
  | 0 => ([], none)
  | fuel + 1 =>
      match skipSpace text with
      | '"' :: rest =>
          match readQuoted? rest with
          | none => ([], none)
          | some (characters, afterKey) =>
              let key := characters.map String.ofList
              match skipSpace afterKey with
              | ':' :: afterColon =>
                  match readFrom fuel afterColon with
                  | (value, none) => ([(key, value)], none)
                  | (value, some remaining) =>
                      match skipSpace remaining with
                      | '}' :: further => ([(key, value)], some further)
                      | ',' :: further =>
                          let (members, remaining) := readMembers fuel further
                          ((key, value) :: members, remaining)
                      | _ => ([(key, value)], none)
              | _ => ([(key, .broken)], none)
      | _ => ([], none)

end

def take (text : List Char) : Taken :=
  readFrom (2 * text.length + 2) text

/-- The value at the start of a text, whatever follows it. -/
def beginning (text : String) : Json :=
  (take text.toList).1

/-- The value that a whole text is; broken where something follows it. -/
def read (text : String) : Json :=
  match take text.toList with
  | (value, some rest) => if (skipSpace rest).isEmpty then value else .broken
  | (value, none) => value

end Depot.Json
