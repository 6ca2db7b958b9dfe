import Depot.Decimal.Binary64

/-!
Contract: the values of TOML documents, and how tables come together.

A table can come about in four ways, and that decides what may still be added to
it. A table under a header is complete when the next header comes. One that a
longer header implies may still get a header of its own. One that a key with
dots makes may get more such keys. An inline table is complete at once. No key is
ever given twice.

Owns: values, and insertion under keys with dots and under headers.
Does not own: how documents are written (`Depot.Toml.Reader`).
-/

namespace Depot

/-- How a table came about. -/
inductive Toml.Origin where
  | header
  | implied
  | dotted
  | inline
deriving DecidableEq, Repr

/-- A value of a document. -/
inductive Toml where
  | string (value : String)
  | integer (value : Int)
  | float (value : Decimal.Binary64)
  | boolean (value : Bool)
  /-- A date, a time, or both. -/
  | moment
  | array (items : List Toml)
  | table (origin : Toml.Origin) (members : List (String × Toml))
  /-- The tables under a header in double brackets. -/
  | tables (list : List (List (String × Toml)))

namespace Toml

abbrev Members := List (String × Toml)

def member? (key : String) (members : Members) : Option Toml :=
  (members.find? fun member => member.1 = key).map Prod.snd

/-- The members with a value put in the place of the key's, or at the end. -/
def putMember (key : String) (value : Toml) : Members → Members
  | [] => [(key, value)]
  | member :: members =>
      if member.1 = key then (key, value) :: members else member :: putMember key value members

/-- Change the members of the table under a path of keys. Tables that are missing
are made with the origin that is given; only tables of an allowed origin are
entered, and of the tables under a header in double brackets the last one. -/
def changeUnder (made : Origin) (allowed : Origin → Bool)
    (change : Origin → Members → Option Members) (origin : Origin) (members : Members) :
    List String → Option Members
  | [] => change origin members
  | key :: path =>
      match member? key members with
      | none =>
          (changeUnder made allowed change made [] path).map fun inner =>
            putMember key (.table made inner) members
      | some (.table origin inner) =>
          if allowed origin then
            (changeUnder made allowed change origin inner path).map fun after =>
              putMember key (.table origin after) members
          else none
      | some (.tables list) =>
          match list.getLast? with
          | some inner =>
              (changeUnder made allowed change .header inner path).map fun after =>
                putMember key (.tables (list.dropLast ++ [after])) members
          | none => none
      | some _ => none

/-- Add a value under a path of keys. A path of more than one key leads through
tables that such paths have made. -/
def insert (members : Members) (path : List String) (key : String) (value : Toml) :
    Option Members :=
  changeUnder .dotted (fun origin => origin = .dotted || origin = .implied)
    (fun origin members =>
      if (!path.isEmpty && origin ≠ .dotted) || (member? key members).isSome then none
      else some (members ++ [(key, value)]))
    .header members path

/-- Keys with dots and their values, in the order in which they are written. -/
abbrev Pairs := List (List String × String × Toml)

def insertAll (members : Members) : Pairs → Option Members
  | [] => some members
  | (path, key, value) :: pairs => do insertAll (← insert members path key value) pairs

/-- Enter any table but an inline one. -/
def isOpen (origin : Origin) : Bool :=
  origin ≠ .inline

/-- Add the table of a header. -/
def insertTable (members : Members) (path : List String) (key : String) (pairs : Pairs) :
    Option Members :=
  changeUnder .implied isOpen
    (fun _ members =>
      match member? key members with
      | none => (insertAll [] pairs).map fun inner => members ++ [(key, .table .header inner)]
      | some (.table .implied inner) =>
          (insertAll inner pairs).map fun after => putMember key (.table .header after) members
      | some _ => none)
    .header members path

/-- Add a table to those of a header in double brackets. -/
def appendTable (members : Members) (path : List String) (key : String) (pairs : Pairs) :
    Option Members :=
  changeUnder .implied isOpen
    (fun _ members => do
      let inner ← insertAll [] pairs
      match member? key members with
      | none => return members ++ [(key, .tables [inner])]
      | some (.tables list) => return putMember key (.tables (list ++ [inner])) members
      | some _ => none)
    .header members path

end Toml

end Depot
