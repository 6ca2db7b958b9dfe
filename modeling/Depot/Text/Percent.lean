import Depot.Text.Character
import Depot.Text.Split

/-!
Contract: texts in which bytes are written as a percent sign and two digits, and
the parameters after the question mark of an address.

A percent sign without two hexadecimal digits after it stands for itself. The
bytes that are written so have to be the UTF-8 form of characters, or the text
has no meaning. Parameters are separated by ampersands, names and values by the
first equals sign. In both a plus sign stands for a space, and bytes may be
written with percent signs.

Owns: the reading of such texts and of parameters.
Does not own: which parameters there are (`Depot.Http.Router`,
`Depot.Database.Opening`).
-/

namespace Depot.Text

/-- A character that is written as itself, or a byte. -/
inductive PercentPiece where
  | plain (character : Char)
  | byte (value : Nat)
deriving DecidableEq, Repr

def percentPieces : List Char → List PercentPiece
  | '%' :: high :: low :: rest =>
      match hexValue? high, hexValue? low with
      | some high, some low => .byte (high * 16 + low) :: percentPieces rest
      | _, _ => .plain '%' :: percentPieces (high :: low :: rest)
  | character :: rest => .plain character :: percentPieces rest
  | [] => []

/-- Whether the byte goes on with a character. -/
def isContinuation (byte : Nat) : Bool :=
  0x80 ≤ byte && byte ≤ 0xbf

/-- The character of two bytes. -/
def charOfTwo? (first second : Nat) : Option Char :=
  if 0xc2 ≤ first ∧ first ≤ 0xdf ∧ isContinuation second then
    some (Char.ofNat ((first - 0xc0) * 64 + (second - 0x80)))
  else none

/-- The character of three bytes; surrogates and overlong forms are none. -/
def charOfThree? (first second third : Nat) : Option Char :=
  let value := (first - 0xe0) * 4096 + (second - 0x80) * 64 + (third - 0x80)
  if 0xe0 ≤ first ∧ first ≤ 0xef ∧ isContinuation second ∧ isContinuation third ∧
      0x800 ≤ value ∧ ¬(0xd800 ≤ value ∧ value ≤ 0xdfff) then
    some (Char.ofNat value)
  else none

/-- The character of four bytes. -/
def charOfFour? (first second third fourth : Nat) : Option Char :=
  let value :=
    (first - 0xf0) * 262144 + (second - 0x80) * 4096 + (third - 0x80) * 64 + (fourth - 0x80)
  if 0xf0 ≤ first ∧ first ≤ 0xf4 ∧ isContinuation second ∧ isContinuation third ∧
      isContinuation fourth ∧ 0x10000 ≤ value ∧ value ≤ 0x10ffff then
    some (Char.ofNat value)
  else none

/-- The characters of pieces, if their bytes make up characters. -/
def charsOfPieces? : List PercentPiece → Option (List Char)
  | [] => some []
  | .plain character :: rest => (charsOfPieces? rest).map (character :: ·)
  | .byte first :: rest =>
      if first < 0x80 then (charsOfPieces? rest).map (Char.ofNat first :: ·)
      else
        match rest with
        | .byte second :: rest =>
            match charOfTwo? first second with
            | some character => (charsOfPieces? rest).map (character :: ·)
            | none =>
                match rest with
                | .byte third :: rest =>
                    match charOfThree? first second third with
                    | some character => (charsOfPieces? rest).map (character :: ·)
                    | none =>
                        match rest with
                        | .byte fourth :: rest =>
                            match charOfFour? first second third fourth with
                            | some character => (charsOfPieces? rest).map (character :: ·)
                            | none => none
                        | _ => none
                | _ => none
        | _ => none

/-- The text that a text with percent signs stands for. -/
def percentDecoded? (text : List Char) : Option (List Char) :=
  charsOfPieces? (percentPieces text)

/-- A piece by itself, where bytes beyond ASCII are no characters. -/
def PercentPiece.char : PercentPiece → Char
  | .plain character => character
  | .byte value => if value < 0x80 then Char.ofNat value else '\uFFFD'

/-- The text that a text with percent signs stands for, up to the first byte of
zero. In bytes that make up no characters those beyond ASCII are not known. -/
def percentDecodedToZero (text : List Char) : List Char :=
  let pieces := (percentPieces text).takeWhile (· ≠ .byte 0)
  (charsOfPieces? pieces).getD (pieces.map PercentPiece.char)

end Depot.Text

namespace Depot.Text.Parameters

/-! ### Parameters -/

/-- A name or a value as it is meant. What has no meaning is no text. -/
def decoded? (text : List Char) : Option String :=
  (percentDecoded? (text.map fun character => if character = '+' then ' ' else character)).map
    String.ofList

def readParameter (text : List Char) : Option String × Option String :=
  match cutAt? '=' text with
  | some (name, value) => (decoded? name, decoded? value)
  | none => (decoded? text, some "")

def read (query : List Char) : List (Option String × Option String) :=
  ((pieces '&' query).filter fun piece => !piece.isEmpty).map readParameter

/-- The value of a parameter that has to be given exactly once. -/
def single? (name : String) (query : List Char) : Option String :=
  match (read query).filter fun parameter => parameter.1 = some name with
  | [parameter] => parameter.2
  | _ => none

end Depot.Text.Parameters
