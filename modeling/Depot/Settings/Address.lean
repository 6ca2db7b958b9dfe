import Depot.Text.Split

/-!
Contract: which texts are addresses to listen at.

An address is the number of a host, a colon and the number of a port. A host has
four parts from 0 to 255 with dots between them, or, in square brackets, eight
groups of up to four hexadecimal digits with colons between them. Two colons
stand for groups of zeros, the last two groups may be written as four parts, and
a number may follow a percent sign.

Owns: the two forms.
Does not own: what listens.
-/

namespace Depot.Settings.Address

open Text

/-- Whether a text is a number below a limit, in at most so many digits. -/
def isNumber (digits limit : Nat) (text : List Char) : Bool :=
  !text.isEmpty && text.all isDigit && text.length ≤ digits && digitsValue text < limit

/-- Whether a text is a part of a host with dots: without zeros at its front. -/
def isPart (text : List Char) : Bool :=
  isNumber 3 256 text && (text.length = 1 || text.head? ≠ some '0')

def isDotted (text : List Char) : Bool :=
  let parts := pieces '.' text
  parts.length = 4 && parts.all isPart

/-- Whether a text is a group of a host with colons. -/
def isGroup (text : List Char) : Bool :=
  !text.isEmpty && text.length ≤ 4 && text.all fun digit => (hexValue? digit).isSome

/-- The number of groups that a list of them stands for; only the last one may be
four parts with dots, and only where that is allowed. -/
def countGroups? (mayEndDotted : Bool) : List (List Char) → Option Nat
  | [] => some 0
  | [last] =>
      if isGroup last then some 1
      else if mayEndDotted && isDotted last then some 2 else none
  | group :: groups =>
      if isGroup group then (countGroups? mayEndDotted groups).map (· + 1) else none

/-- The groups of a text, which are none where it is empty. -/
def groupsOf (text : List Char) : List (List Char) :=
  if text.isEmpty then [] else pieces ':' text

/-- What stands before and after the first two colons, if there are any. -/
def cutAtGap? : List Char → Option (List Char × List Char)
  | ':' :: ':' :: rest => some ([], rest)
  | character :: rest =>
      (cutAtGap? rest).map fun cut => (character :: cut.1, cut.2)
  | [] => none

def isColoned (text : List Char) : Bool :=
  match cutAtGap? text with
  | none => countGroups? true (groupsOf text) = some 8
  | some (front, back) =>
      match countGroups? false (groupsOf front), countGroups? true (groupsOf back) with
      | some before, some after => before + after ≤ 7
      | _, _ => false

def isPort (text : List Char) : Bool :=
  !text.isEmpty && text.all isDigit && digitsValue text < 65536

/-- Whether a text is a host with colons, perhaps with a number after a percent
sign. -/
def isBracketed (text : List Char) : Bool :=
  match cutAt? '%' text with
  | none => isColoned text
  | some (host, number) =>
      isColoned host && !number.isEmpty && number.all isDigit && digitsValue number < Nat.pow 2 32

def isAddress (text : List Char) : Bool :=
  match text with
  | '[' :: rest =>
      match cutAt? ']' rest with
      | some (host, ':' :: port) => isBracketed host && isPort port
      | _ => false
  | _ =>
      match cutAt? ':' text with
      | some (host, port) => isDotted host && isPort port
      | none => false

end Depot.Settings.Address
