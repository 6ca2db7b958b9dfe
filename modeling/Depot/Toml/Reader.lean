import Depot.Toml.Quoted
import Depot.Toml.Scalar

/-!
Contract: whole TOML documents.

A document is a list of lines: pairs of a key and a value, headers, comments and
nothing. Pairs before the first header belong to the document itself, the others
to the table of the header before them. A document in which any line is wrong is
no document.

Owns: keys, values, lines and documents.
Does not own: which tables may be extended (`Depot.Toml.Basic`).
-/

namespace Depot.Toml

open Text

/-- The levels to which arrays and inline tables nest, and the keys in a key with
dots. -/
def deepest : Nat := 79

def isBlankInLine (character : Char) : Bool :=
  character = ' ' || character = '\t'

/-- The text without its leading spaces and tabs. -/
def skipInLine (text : List Char) : List Char :=
  text.dropWhile isBlankInLine

/-- The text without a comment at its beginning. -/
def skipComment (text : List Char) : List Char :=
  match text with
  | '#' :: rest => rest.dropWhile isPlain
  | _ => text

/-- What follows a line break, or the end of the text. -/
def afterLine? (text : List Char) : Option (List Char) :=
  match skipComment (skipInLine text) with
  | [] => some []
  | '\n' :: rest | '\r' :: '\n' :: rest => some rest
  | _ => none

/-- The text without leading blanks, line breaks and comments. -/
def skipLines : List Char → (inComment : Bool) → List Char
  | [], _ => []
  | '\n' :: rest, _ => skipLines rest false
  | '\r' :: '\n' :: rest, _ => skipLines rest false
  | character :: rest, true =>
      if isPlain character then skipLines rest true else character :: rest
  | character :: rest, false =>
      if isBlankInLine character then skipLines rest false
      else if character = '#' then skipLines rest true
      else character :: rest

/-- Whether the character may stand in a key without quotes. -/
def isBare (character : Char) : Bool :=
  isLetter character || isDigit character || character = '-' || character = '_'

/-- A key without dots. -/
def readSimpleKey? (text : List Char) : Option (String × List Char) :=
  match text with
  | '"' :: rest => (readBasic? rest).map fun found => (String.ofList found.1, found.2)
  | '\'' :: rest => (readLiteral? rest).map fun found => (String.ofList found.1, found.2)
  | _ =>
      let bare := text.takeWhile isBare
      if bare.isEmpty then none else some (String.ofList bare, text.dropWhile isBare)

/-- The keys of a key with dots: those before the last one, and the last one.
There are at most as many as there is room for. -/
def readKey? : (room : Nat) → List Char → Option (List String × String × List Char)
  | 0, _ => none
  | room + 1, text => do
      let (key, rest) ← readSimpleKey? (skipInLine text)
      match skipInLine rest with
      | '.' :: further =>
          let (path, last, remaining) ← readKey? room further
          return (key :: path, last, remaining)
      | remaining => return ([], key, remaining)

mutual

/-- A value. The fuel bounds the number of tokens, the room the levels of arrays
and inline tables. -/
def readValue? (fuel room : Nat) (text : List Char) : Option Taken :=
  match fuel with
  | 0 => none
  | fuel + 1 =>
      match text with
      | '"' :: _ | '\'' :: _ =>
          (readText? text).map fun found => (.string (String.ofList found.1), found.2)
      | '[' :: rest =>
          match room with
          | 0 => none
          | room + 1 =>
              match skipLines rest false with
              | ']' :: further => some (.array [], further)
              | further =>
                  (readItems? fuel room further).map fun found => (.array found.1, found.2)
      | '\x7b' :: rest =>
          match room with
          | 0 => none
          | room + 1 =>
              match skipInLine rest with
              | '\x7d' :: further => some (.table .inline [], further)
              | further => do
                  let (pairs, remaining) ← readPairs? fuel room further
                  return (.table .inline (← insertAll [] pairs), remaining)
      | 't' :: 'r' :: 'u' :: 'e' :: rest => some (.boolean true, rest)
      | 'f' :: 'a' :: 'l' :: 's' :: 'e' :: rest => some (.boolean false, rest)
      | _ => readNumber? text

/-- The items of an array from the first one on. -/
def readItems? (fuel room : Nat) (text : List Char) : Option (List Toml × List Char) :=
  match fuel with
  | 0 => none
  | fuel + 1 => do
      let (item, rest) ← readValue? fuel room text
      match skipLines rest false with
      | ']' :: further => return ([item], further)
      | ',' :: further =>
          match skipLines further false with
          | ']' :: remaining => return ([item], remaining)
          | remaining =>
              let (items, remaining) ← readItems? fuel room remaining
              return (item :: items, remaining)
      | _ => none

/-- The pairs of an inline table from the first one on. -/
def readPairs? (fuel room : Nat) (text : List Char) : Option (Pairs × List Char) :=
  match fuel with
  | 0 => none
  | fuel + 1 => do
      let ((path, key, value), rest) ← readPair? fuel room text
      match skipInLine rest with
      | '\x7d' :: further => return ([(path, key, value)], further)
      | ',' :: further =>
          let (pairs, remaining) ← readPairs? fuel room further
          return ((path, key, value) :: pairs, remaining)
      | _ => none

/-- A key, an equals sign and a value. -/
def readPair? (fuel room : Nat) (text : List Char) :
    Option ((List String × String × Toml) × List Char) :=
  match fuel with
  | 0 => none
  | fuel + 1 => do
      let (path, key, rest) ← readKey? deepest text
      match rest with
      | '=' :: further =>
          let (value, remaining) ← readValue? fuel room (skipInLine further)
          return ((path, key, value), remaining)
      | _ => none

end

/-- A line that says something. -/
inductive Line where
  | pair (path : List String) (key : String) (value : Toml)
  | header (path : List String) (key : String)
  | doubleHeader (path : List String) (key : String)

/-- The pairs at the beginning of a list of lines, and the lines from the next
header on. -/
def takePairs : List Line → Pairs × List Line
  | .pair path key value :: lines =>
      let (pairs, rest) := takePairs lines
      ((path, key, value) :: pairs, rest)
  | lines => ([], lines)

/-- What a line says, if it says anything, and what follows it. -/
def readLine? (text : List Char) : Option (Option Line × List Char) := do
  let afterBracket? := fun (rest : List Char) (brackets : List Char) => do
    let (path, key, remaining) ← readKey? deepest rest
    return (path, key, ← afterLine? (← rest? brackets remaining))
  match skipInLine text with
  | [] => return (none, [])
  | '#' :: _ | '\n' :: _ | '\r' :: _ => return (none, ← afterLine? text)
  | '[' :: '[' :: rest =>
      let (path, key, remaining) ← afterBracket? rest [']', ']']
      return (some (.doubleHeader path key), remaining)
  | '[' :: rest =>
      let (path, key, remaining) ← afterBracket? rest [']']
      return (some (.header path key), remaining)
  | line =>
      let ((path, key, value), remaining) ← readPair? (2 * line.length + 3) deepest line
      return (some (.pair path key value), ← afterLine? remaining)

/-- The lines of a document. The fuel bounds their number. -/
def readLines? : (fuel : Nat) → List Char → Option (List Line)
  | _, [] => some []
  | 0, _ :: _ => none
  | fuel + 1, text => do
      let (line?, rest) ← readLine? text
      let lines ← readLines? fuel rest
      return line?.toList ++ lines

/-- The members of a document, with the tables that lines from a header on add. The
fuel bounds the number of headers. -/
def addTables (members : Members) : (fuel : Nat) → List Line → Option Members
  | _, [] => some members
  | 0, _ :: _ => none
  | fuel + 1, line :: lines => do
      let (pairs, rest) := takePairs lines
      match line with
      | .header path key => addTables (← insertTable members path key pairs) fuel rest
      | .doubleHeader path key => addTables (← appendTable members path key pairs) fuel rest
      | .pair _ _ _ => none

/-- The members of the document that a text is. A mark of the order of bytes may
stand before it. -/
def read? (text : String) : Option Members := do
  let text := (rest? ['\ufeff'] text.toList).getD text.toList
  let lines ← readLines? (text.length + 1) text
  let (pairs, rest) := takePairs lines
  addTables (← insertAll [] pairs) lines.length rest

end Depot.Toml
