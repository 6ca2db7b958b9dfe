import Depot.Text.Split

/-!
Contract: the four ways in which TOML writes texts.

A text stands in single or double quotes, or in three of them, and then it may
have several lines. Only in double quotes do backslashes mean anything.

Owns: what follows the opening quotes, up to the closing ones.
Does not own: where texts may stand (`Depot.Toml.Reader`).
-/

namespace Depot.Toml

open Text

/-- Whether the character may stand in a line. -/
def isPlain (character : Char) : Bool :=
  character = '\t' || (' ' ≤ character && character ≠ '\x7f')

/-- The character with a number in hexadecimal digits. -/
def charOfHex? (digits : List Char) : Option Char := do
  let values ← digits.mapM hexValue?
  let number := values.foldl (fun number value => number * 16 + value) 0
  if number.isValidChar then return Char.ofNat number else none

/-- The character that a letter after a backslash stands for. -/
def escaped? (letter : Char) : Option Char :=
  match letter with
  | 'b' => some '\x08'
  | 't' => some '\t'
  | 'n' => some '\n'
  | 'f' => some '\x0c'
  | 'r' => some '\r'
  | '"' => some '"'
  | '\\' => some '\\'
  | _ => none

/-- A text and what follows it. -/
abbrev Quoted := List Char × List Char

/-- The text with a character before it. -/
def Quoted.after (character : Char) (quoted : Option Quoted) : Option Quoted :=
  quoted.map fun found => (character :: found.1, found.2)

/-- A text in double quotes. -/
def readBasic? : List Char → Option Quoted
  | [] => none
  | '"' :: rest => some ([], rest)
  | '\\' :: 'U' :: a :: b :: c :: d :: e :: f :: g :: h :: rest => do
      (readBasic? rest |> Quoted.after (← charOfHex? [a, b, c, d, e, f, g, h]))
  | '\\' :: 'u' :: a :: b :: c :: d :: rest => do
      (readBasic? rest |> Quoted.after (← charOfHex? [a, b, c, d]))
  | '\\' :: letter :: rest => do
      (readBasic? rest |> Quoted.after (← escaped? letter))
  | character :: rest =>
      if isPlain character && character ≠ '\\' then
        readBasic? rest |> Quoted.after character
      else none

/-- A text in single quotes. -/
def readLiteral? : List Char → Option Quoted
  | [] => none
  | '\'' :: rest => some ([], rest)
  | character :: rest =>
      if isPlain character then readLiteral? rest |> Quoted.after character else none

/-- The text after a line break at its beginning. -/
def afterBreak (text : List Char) : List Char :=
  match text with
  | '\n' :: rest | '\r' :: '\n' :: rest => rest
  | _ => text

/-- Whether only spaces and tabs stand before the next line break. -/
def breaksLine (text : List Char) : Bool :=
  match text.dropWhile fun character => character = ' ' || character = '\t' with
  | '\n' :: _ | '\r' :: '\n' :: _ => true
  | _ => false

/-- A text in three double quotes, in which one or two may stand as well. After a
backslash at the end of a line all blanks are skipped. -/
def readBasicLines? (skips : Bool) : List Char → Option Quoted
  | [] => none
  | '"' :: '"' :: '"' :: '"' :: '"' :: rest => some (['"', '"'], rest)
  | '"' :: '"' :: '"' :: '"' :: rest => some (['"'], rest)
  | '"' :: '"' :: '"' :: rest => some ([], rest)
  | '\r' :: '\n' :: rest =>
      if skips then readBasicLines? true rest
      else readBasicLines? false rest |> Quoted.after '\n'
  | '\\' :: 'U' :: a :: b :: c :: d :: e :: f :: g :: h :: rest => do
      (readBasicLines? false rest |> Quoted.after (← charOfHex? [a, b, c, d, e, f, g, h]))
  | '\\' :: 'u' :: a :: b :: c :: d :: rest => do
      (readBasicLines? false rest |> Quoted.after (← charOfHex? [a, b, c, d]))
  | '\\' :: letter :: rest =>
      if breaksLine (letter :: rest) then readBasicLines? true rest
      else do (readBasicLines? false rest |> Quoted.after (← escaped? letter))
  | character :: rest =>
      if skips && (character = ' ' || character = '\t' || character = '\n') then
        readBasicLines? true rest
      else if character = '\n' || (isPlain character && character ≠ '\\') then
        readBasicLines? false rest |> Quoted.after character
      else none

/-- A text in three single quotes, in which one or two may stand as well. -/
def readLiteralLines? : List Char → Option Quoted
  | [] => none
  | '\'' :: '\'' :: '\'' :: '\'' :: '\'' :: rest => some (['\'', '\''], rest)
  | '\'' :: '\'' :: '\'' :: '\'' :: rest => some (['\''], rest)
  | '\'' :: '\'' :: '\'' :: rest => some ([], rest)
  | '\r' :: '\n' :: rest => readLiteralLines? rest |> Quoted.after '\n'
  | character :: rest =>
      if character = '\n' || isPlain character then
        readLiteralLines? rest |> Quoted.after character
      else none

/-- A text of any of the four kinds, with its quotes. -/
def readText? : List Char → Option Quoted
  | '"' :: '"' :: '"' :: rest => readBasicLines? false (afterBreak rest)
  | '\'' :: '\'' :: '\'' :: rest => readLiteralLines? (afterBreak rest)
  | '"' :: rest => readBasic? rest
  | '\'' :: rest => readLiteral? rest
  | _ => none

end Depot.Toml
