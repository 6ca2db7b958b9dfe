import Depot.Json.Basic

/-!
Contract: a JSON tree as compact text.

No space is written between tokens. A text in quotes has a backslash before a
quote and a backslash, short escapes for five control characters and four
hexadecimal digits for the others; every other character stands for itself.

Owns: escaping and layout.
Does not own: reading (`Depot.Json.Reader`).
-/

namespace Depot.Json

open Depot.Text

/-- One character of a text in quotes. -/
def escaped (character : Char) : List Char :=
  match character with
  | '"' => ['\\', '"']
  | '\\' => ['\\', '\\']
  | '\x08' => ['\\', 'b']
  | '\x09' => ['\\', 't']
  | '\x0a' => ['\\', 'n']
  | '\x0c' => ['\\', 'f']
  | '\x0d' => ['\\', 'r']
  | _ =>
      if character.toNat < 0x20 then
        '\\' :: 'u' :: hexText 4 character.toNat
      else [character]

/-- A text in quotes. -/
def quoted (text : String) : List Char :=
  '"' :: text.toList.flatMap escaped ++ ['"']

mutual

/-- The tree as text. What could not be read is written as null. -/
def print : Json → List Char
  | .null => "null".toList
  | .bool true => "true".toList
  | .bool false => "false".toList
  | .number numeral => numeral.text
  | .string text => text.elim "null".toList quoted
  | .array items _ => '[' :: printItems items ++ [']']
  | .object members _ => '{' :: printMembers members ++ ['}']
  | .broken => "null".toList

def printItems : List Json → List Char
  | [] => []
  | [item] => print item
  | item :: items => print item ++ ',' :: printItems items

def printMembers : List (Option String × Json) → List Char
  | [] => []
  | [(key, value)] => quoted (key.getD "") ++ ':' :: print value
  | (key, value) :: members =>
      quoted (key.getD "") ++ ':' :: print value ++ ',' :: printMembers members

end

def text (tree : Json) : String :=
  String.ofList tree.print

end Depot.Json
