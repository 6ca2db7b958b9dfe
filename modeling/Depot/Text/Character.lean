/-!
Contract: classes of characters, and what is done by them.

A character is blank when it has the Unicode property White_Space: 25 code
points in ten ranges. Trimming removes blanks at the ends and nothing else, so
zero-width characters stay. Lower-casing changes the 26 ASCII capitals and leaves
every other character as it is, so words are compared without regard to ASCII
case alone.

Owns: blanks and trims, lower-casing, digit values, and the writing of integers.
Does not own: numbers with a sign, point or exponent (`Depot.Decimal`).
-/

namespace Depot.Text

/-! ### Blanks -/

/-- The ranges of code points with the property White_Space, both ends included. -/
def blankRanges : List (Nat × Nat) :=
  [(0x09, 0x0d), (0x20, 0x20), (0x85, 0x85), (0xa0, 0xa0), (0x1680, 0x1680),
   (0x2000, 0x200a), (0x2028, 0x2029), (0x202f, 0x202f), (0x205f, 0x205f),
   (0x3000, 0x3000)]

/-- Whether the character has the property White_Space. -/
def isBlank (character : Char) : Bool :=
  blankRanges.any fun range =>
    range.1 ≤ character.toNat && character.toNat ≤ range.2

def trimStart (text : List Char) : List Char :=
  text.dropWhile isBlank

def trimEnd (text : List Char) : List Char :=
  (text.reverse.dropWhile isBlank).reverse

def trim (text : List Char) : List Char :=
  trimEnd (trimStart text)

def trimmed (text : String) : String :=
  String.ofList (trim text.toList)

/-! ### Letter case and digits -/

/-- The character with an ASCII capital made small. -/
def lowerChar (character : Char) : Char :=
  if 'A' ≤ character ∧ character ≤ 'Z' then
    Char.ofNat (character.toNat + 32)
  else
    character

def lower (text : List Char) : List Char :=
  text.map lowerChar

def lowered (text : String) : String :=
  String.ofList (lower text.toList)

def isDigit (character : Char) : Bool :=
  '0' ≤ character && character ≤ '9'

/-- Whether the character is an ASCII letter. -/
def isLetter (character : Char) : Bool :=
  ('a' ≤ character && character ≤ 'z') || ('A' ≤ character && character ≤ 'Z')

/-- The value of a decimal digit; meaningful for the characters of `isDigit`. -/
def digitValue (digit : Char) : Nat :=
  digit.toNat - 48

/-- The value of a hexadecimal digit of either case. -/
def hexValue? (character : Char) : Option Nat :=
  if isDigit character then some (digitValue character)
  else if 'a' ≤ character ∧ character ≤ 'f' then some (character.toNat - 87)
  else if 'A' ≤ character ∧ character ≤ 'F' then some (character.toNat - 55)
  else none

/-- The lower-case hexadecimal digit with a value below sixteen. -/
def hexChar (value : Nat) : Char :=
  if value % 16 < 10 then Char.ofNat (48 + value % 16) else Char.ofNat (87 + value % 16)

/-- The value of a run of decimal digits, most significant first. -/
def digitsValue (digits : List Char) : Nat :=
  digits.foldl (fun value digit => value * 10 + digitValue digit) 0

def natText (value : Nat) : List Char :=
  Nat.toDigits 10 value

/-- The number written in decimal, padded with zeros to a least width. -/
def paddedText (width value : Nat) : List Char :=
  let digits := natText value
  List.replicate (width - digits.length) '0' ++ digits

/-- The lowest `width` hexadecimal digits of the number, all of them written. -/
def hexText : (width : Nat) → (value : Nat) → List Char
  | 0, _ => []
  | width + 1, value => hexText width (value / 16) ++ [hexChar value]

def intText : Int → List Char
  | .ofNat value => natText value
  | .negSucc value => '-' :: natText (value + 1)

end Depot.Text
