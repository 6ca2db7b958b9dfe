import Depot.Database.Basic
import Depot.Database.Target
import Depot.Files.Basic

/-!
Contract: databases in files and in memory.

An address is opened in two moves. First the directory of its file is made. Then
the file is opened as the address asks: it is made where it is missing, unless it
is only to be read or written. A file without content becomes a database without
rows.

Beside a file the engine keeps a journal and looks for a log, under the file's name
with an ending. Neither name may be that of a directory. What is left of them is
gone after a change.

A database in memory is new each time. Where it belongs to one connection, it can
be opened, but the next connection finds nothing in it.

Owns: directories of databases, what stands beside their files, and changes to
databases at addresses.
Does not own: what addresses ask for (`Depot.Database.Target`), and the changes
themselves.
-/

namespace Depot.Database

/-- What a file holds. -/
inductive Content where
  | text (raw : String)
  | database (database : Database)
deriving DecidableEq

def folderMessage (folder url : List Char) : String :=
  "failed to create parent directory '" ++ String.ofList folder ++ "' for database url '" ++
    String.ofList url ++ "'"

/-- Make the directory of a file that an address names. -/
def makeFolder {α : Type} (files : Files α) (url : List Char) :
    Option (List Char) → Files α × Except Fault Unit
  | none => (files, .ok ())
  | some file =>
      match Files.Path.parentText? file with
      | none => (files, .ok ())
      | some folder =>
          match files.ensurePath folder with
          | (after, .ok ()) => (after, .ok ())
          | (after, .error _) => (after, .error (.failed (folderMessage folder url)))

/-- Make the directory of a file before it is opened. A file that stands where one is
needs none. -/
def prepareFolder {α : Type} (files : Files α) (url : List Char)
    (file? : Option (List Char)) : Files α × Except Fault Unit :=
  if file?.bind Files.Path.parentText? = some [] then (files, .ok ())
  else makeFolder files url file?

/-- Settle an address and make the directory of its file. -/
def prepare {α : Type} (files : Files α) (raw : String) : Files α × Except Fault String :=
  let url := Url.settled raw.toList
  let (after, made) := prepareFolder files url (Url.preparedFile? url)
  (after, made.map fun () => String.ofList url)

def Content.isBlank : Content → Bool
  | .text raw => raw.isEmpty
  | .database _ => false

/-- The database that a file holds, if it holds one; whether a file without
content may become one is given. -/
def ofContent? (mayBegin : Bool) : Content → Option Database
  | .database database => some database
  | .text raw => if mayBegin && raw.isEmpty then some empty else none

/-- The place of what stands beside a file: its name has an ending more. -/
def beside (place : Files.Place) (ending : String) : Files.Place :=
  place.dropLast ++ [place.getLastD "" ++ ending]

def journalOf (place : Files.Place) : Files.Place := beside place "-journal"

def logOf (place : Files.Place) : Files.Place := beside place "-wal"

/-- The place of the lock of a file, for the access that locks by directories. -/
def lockOf (place : Files.Place) : Files.Place := beside place ".lock"

/-- The most bytes that the text of a place has which leads to a file. -/
def longestWay : Nat := 511

/-- The most bytes that the text of the place of a database has. Its journal's is as
much longer as the ending is. -/
def longestPlace : Nat := 504

/-- Whether what stands beside a file lets the file be opened. A journal with
content would have to be written back first. -/
def allowsBeside (files : Files Content) (place : Files.Place) (target : Target) : Bool :=
  Files.isName ((journalOf place).getLastD "") &&
    !files.isDirectoryAt (logOf place) &&
    !(target.access = some "unix-dotfile" && files.entries.has (lockOf place)) &&
    match files.entries.get? (journalOf place) with
    | none => true
    | some .directory => false
    | some (.file content) => !target.isFixed || content.isBlank

/-- The files without the log of a file, if the log has content. -/
def withoutLog (files : Files Content) (place : Files.Place) : Files Content :=
  match files.entries.get? (logOf place) with
  | some (.file content) => if content.isBlank then files else files.withoutFile (logOf place)
  | _ => files

/-- The files after a change to one: neither its journal nor a log with content is
left. -/
def settleBeside (files : Files Content) (place : Files.Place) : Files Content :=
  withoutLog (files.withoutFile (journalOf place)) place

/-- Whether a file at a place can be opened, or made where it may be. -/
def isWithinReach (files : Files Content) (place : Files.Place) (target : Target) : Bool :=
  files.isDirectoryAt place.dropLast && !files.isDirectoryAt place &&
    place.size ≤ longestPlace &&
    (files.entries.has place || target.mode.right = .making) &&
    target.model.all fun model =>
      model ≠ "" &&
        (files.placeOf? longestWay (.ofText model.toList)).any fun found =>
          found.isEmpty || files.entries.has found

/-- A change to the database in a file. A file that may not be written to has to
hold a database already, and stays as it is. The log of a file without content is
of no use, and neither log nor journal are looked at beside an immutable file. -/
def changeAt {α : Type} (files : Files Content) (place : Files.Place) (target : Target)
    (change : Database → Database × Except Fault α) : Files Content × Except Fault α :=
  if !isWithinReach files place target then (files, .error .engine)
  else
    let content := match files.entries.get? place with
      | some (.file content) => content
      | _ => .text ""
    let made := files.putFile place content
    let files :=
      if content.isBlank && !target.isImmutable then withoutLog made place else made
    if !target.isImmutable && !allowsBeside files place target then (files, .error .engine)
    else
      match ofContent? (!target.isFixed) content with
      | none => (files, .error .engine)
      | some database =>
          let (after, answer) := change database
          if target.isFixed then
            (files, if after = database then answer else .error .engine)
          else (settleBeside (files.putFile place (.database after)) place, answer)

/-- A change to the database that is opened under a name. The answer is given for
a database in the memory of one connection. -/
def changeIn {α : Type} (files : Files Content) (target : Target) (alone : Except Fault α)
    (change : Database → Database × Except Fault α) : Files Content × Except Fault α :=
  match target.medium? with
  | none => (files, .error .engine)
  | some .file =>
      match files.placeOf? longestWay (.ofText target.name) with
      | none => (files, .error .engine)
      | some place => changeAt files place target change
  | some medium =>
      if target.isFixed then (files, .error .engine)
      else if medium = .ownMemory then (files, alone)
      else (files, (change empty).2)

/-- A change to the database at an address; the answer is given for a database in
the memory of one connection. -/
def changeOr {α : Type} (files : Files Content) (url : String) (alone : Except Fault α)
    (change : Database → Database × Except Fault α) : Files Content × Except Fault α :=
  let url := url.toList
  match makeFolder files url (Url.openedFile? url) with
  | (files, .error fault) => (files, .error fault)
  | (files, .ok ()) =>
      match (Options.ofUrl? url).bind Target.ofOptions? with
      | none => (files, .error .engine)
      | some target => changeIn files target alone change

/-- The database that is found at an address when it is opened. -/
def opened (files : Files Content) (url : String) : Files Content × Except Fault Database :=
  changeOr files url (.ok empty) fun database => (database, .ok database)

/-- A change to the database at an address. It comes after the opening, so that a
database in the memory of one connection has nothing to be changed. -/
def change {α : Type} (files : Files Content) (url : String)
    (change : Database → Database × Except Fault α) : Files Content × Except Fault α :=
  changeOr files url (.error .engine) change

end Depot.Database
