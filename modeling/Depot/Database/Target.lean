import Depot.Database.Options

/-!
Contract: what is opened under a name.

A name is the path of a file, or an address of its own that begins with `file:`.
Such an inner address has percent signs and parameters once more, which take
precedence over the options; unknown ones are ignored. Options that only an inner
address can say turn every name into one, and then the name itself is plain.

A database in memory belongs to one connection, unless its name is an inner
address and connections share.

Owns: inner addresses, and where a database is kept.
Does not own: the opening of files (`Depot.Database.Opening`).
-/

namespace Depot.Database

open Text

/-- What may be done with a database. -/
inductive Right where
  | unstated
  | reading
  | writing
  /-- Writing, and making the file where it is missing. -/
  | making
deriving DecidableEq, Repr

/-- What may be done with a database, and whether it has no file. -/
structure Mode where
  right : Right
  inMemory : Bool
deriving DecidableEq, Repr

namespace Mode

/-- How much a mode allows. Memory outweighs every right. -/
def weight (mode : Mode) : Nat :=
  let ofRight := match mode.right with
    | .unstated => 0
    | .reading => 1
    | .writing => 2
    | .making => 6
  if mode.inMemory then 128 + ofRight else ofRight

def ofWord? : String → Option Mode
  | "ro" => some ⟨.reading, false⟩
  | "rw" => some ⟨.writing, false⟩
  | "rwc" => some ⟨.making, false⟩
  | "memory" => some ⟨.unstated, true⟩
  | _ => none

/-- The mode after a word, whose right may not go beyond what the mode allows. -/
def narrowed? (mode : Mode) (word : String) : Option Mode :=
  (ofWord? word).filter fun wanted => { wanted with inMemory := false }.weight ≤ mode.weight

end Mode

/-- Where a database is kept. -/
inductive Medium where
  | file
  /-- Memory that all connections share. -/
  | sharedMemory
  /-- Memory of one connection, or a file that only that one sees. -/
  | ownMemory
deriving DecidableEq, Repr

/-- What is opened under a name. -/
structure Target where
  /-- The path of the file, or the name in memory. -/
  name : List Char
  mode : Mode
  isShared : Bool
  isImmutable : Bool
  access : Option String
  /-- A file that has to be there, because a new one would be like it. -/
  model : Option String
  /-- Whether the name is an inner address. -/
  isInner : Bool
deriving DecidableEq, Repr

namespace Target

def memoryName : List Char := ":memory:".toList

def ofOptions (options : Options) : Target :=
  ⟨options.name, ⟨if options.readOnly then .reading else .making, options.inMemory⟩,
    options.isShared, options.isImmutable, options.access, none, false⟩

/-- What follows the host of an inner address. The only host is the local one. -/
def withoutHost? (text : List Char) : Option (List Char) :=
  match text with
  | '/' :: '/' :: rest =>
      let host := rest.takeWhile (· ≠ '/')
      if host.isEmpty || host = "localhost".toList then some (rest.dropWhile (· ≠ '/'))
      else none
  | _ => some text

/-- The parameters of an inner address. Those without a name are left out. -/
def parameters (query : List Char) : List (String × String) :=
  let decoded := fun text => String.ofList (percentDecodedToZero text)
  let read := fun piece =>
    let (name, value) := (cutAt? '=' piece).getD (piece, [])
    (decoded name, decoded value)
  ((pieces '&' query).map read).filter fun parameter => parameter.1 ≠ ""

def with? (target : Target) (parameter : String × String) : Option Target :=
  match parameter with
  | ("vfs", access) => some { target with access := some access }
  | ("cache", "shared") => some { target with isShared := true }
  | ("cache", "private") => some { target with isShared := false }
  | ("cache", _) => none
  | ("mode", word) => (target.mode.narrowed? word).map fun mode => { target with mode }
  | _ => some target

/-- Whether a value says yes: a word for it, or a number whose last byte is not
zero. -/
def isYes (value : String) : Bool :=
  let digits := (value.toList.takeWhile isDigit).dropWhile (· = '0')
  let number := digitsValue digits
  ["on", "yes", "true"].contains (lowered value) ||
    (digits.length ≤ 10 && number < Nat.pow 2 31 && number % 256 ≠ 0)

/-- The target of an inner address. The first of the parameters counts for what is
asked of the file itself, and the last one otherwise. -/
def ofInner? (options : Options) (text : List Char) : Option Target := do
  let text := before '#' (← withoutHost? text)
  let (path, query) := (cutAt? '?' text).getD (text, [])
  let given := parameters query
  let start :=
    { ofOptions options with
      name := percentDecodedToZero path
      isImmutable := (given.lookup "immutable").any isYes
      model := given.lookup "modeof"
      isInner := true }
  given.foldlM with? start

def ofOptions? (options : Options) : Option Target :=
  if options.isImmutable || options.access.isSome then
    some { ofOptions options with isInner := true }
  else
    match rest? "file:".toList options.name with
    | some text => ofInner? options text
    | none => some (ofOptions options)

/-- Whether there is no file, whatever the access. -/
def isMemory (target : Target) : Bool :=
  target.name.isEmpty || target.mode.inMemory || target.name = memoryName

def fileAccesses : List String := ["unix", "unix-dotfile", "unix-excl", "unix-none"]

def memoryAccess : String := "memdb"

/-- Where the database is kept, if there is such an access. An access that keeps
files in memory shares those that have a path from the root. -/
def medium? (target : Target) : Option Medium :=
  let access := target.access.getD "unix"
  let own := fun (isShared : Bool) =>
    some (if isShared && !target.name.isEmpty then .sharedMemory else .ownMemory)
  if !(memoryAccess :: fileAccesses).contains access then none
  else if target.isMemory then own (target.isInner && target.isShared)
  else if access = memoryAccess then
    own (target.isShared || (['/', '\\'].contains (target.name.headD 'a') &&
      1 < target.name.length))
  else some .file

/-- Whether nothing can be written. -/
def isFixed (target : Target) : Bool :=
  target.mode.right = .reading || (target.isImmutable && !target.isMemory)

end Target

end Depot.Database
