import Depot.Database.Url
import Depot.Text.Percent

/-!
Contract: what an address asks for besides the file that it names.

The parameters of an address say how its database is opened. All of them have to
be known and to have a value that is known, and the last one of a name counts.

Owns: the parameters of addresses.
Does not own: what the name of the file means (`Depot.Database.Target`).
-/

namespace Depot.Database

open Text

/-- How a database is opened. -/
structure Options where
  /-- The name of the file. -/
  name : List Char
  /-- Whether the file has to be there and is not written to. -/
  readOnly : Bool
  /-- Whether there is no file after all. -/
  inMemory : Bool
  /-- Whether connections share what they hold in memory. -/
  isShared : Bool
  /-- Whether the file is taken for one that nobody writes to. -/
  isImmutable : Bool
  /-- The way in which the engine gets at files. -/
  access : Option String
deriving DecidableEq, Repr

namespace Options

/-- The name under which a database without a file is opened. -/
def memoryName : List Char := "file:memory".toList

/-- The options without parameters. The name of memory stands for a database that
all connections share. -/
def ofName? (name : List Char) : Option Options :=
  if name = ":memory:".toList then some ⟨memoryName, false, true, true, false, none⟩
  else
    match percentDecoded? name with
    | none => none
    | some name =>
        if name.contains '\x00' then none else some ⟨name, false, false, false, false, none⟩

/-- The options with a parameter. A database in memory is shared unless a later
parameter says otherwise. -/
def with? (options : Options) (name value : String) : Option Options :=
  match name, value with
  | "mode", "ro" => some { options with readOnly := true }
  | "mode", "rw" | "mode", "rwc" => some options
  | "mode", "memory" => some { options with inMemory := true, isShared := true }
  | "cache", "private" => some { options with isShared := false }
  | "cache", "shared" => some { options with isShared := true }
  | "immutable", "true" | "immutable", "1" => some { options with isImmutable := true }
  | "immutable", "false" | "immutable", "0" => some { options with isImmutable := false }
  | "vfs", access => some { options with access := some access }
  | _, _ => none

def withAll? (options : Options) : List (Option String × Option String) → Option Options
  | [] => some options
  | (some name, some value) :: others => do withAll? (← options.with? name value) others
  | _ :: _ => none

def ofUrl? (url : List Char) : Option Options := do
  let rest := Url.withoutScheme url
  let (name, parameters) := (cutAt? '?' rest).getD (rest, [])
  (← ofName? name).withAll? (Parameters.read parameters)

end Options

end Depot.Database
