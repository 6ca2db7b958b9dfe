import Depot.Keyed
import Depot.Text.Split

/-!
Contract: directories, the files in them, and the making of directories.

A path is a start and steps from there. Empty steps mean nothing, and neither
does a dot, unless the path begins with it. The parent of a path is written with
the characters of the path itself, up to its last step.

Every directory and file has a place: the names that lead to it from the root.
The root is always there. A step to a name needs a directory of that name, a
step of two dots leads back, and the root leads back to itself. Names and paths
have limits in bytes. A path is read in two ways. Walking it needs every
directory on the way. Resolving it takes names away for the steps back, whether
there is anything or not.

Owns: steps and parents, places, both readings, and directories that are made
with all that lead to them.
Does not own: what files hold.
-/

namespace Depot.Files

open Text

/-! ### Paths -/

/-- The steps of a path, from the root or from where one is. -/
structure Path where
  fromRoot : Bool
  steps : List String
deriving DecidableEq, Repr

namespace Path

/-- Whether a piece of a path leads nowhere: it is empty or a dot. -/
def isIdle (piece : List Char) : Bool :=
  piece = [] || piece = ['.']

/-- What a path begins with apart from its steps: the root, the place where one
is, or nothing. -/
def takeStart (text : List Char) : List Char × List Char :=
  match text with
  | '/' :: rest => (['/'], rest)
  | ['.'] => (['.'], [])
  | '.' :: '/' :: rest => (['.'], '/' :: rest)
  | _ => ([], text)

/-- The pieces without the idle ones at their end. -/
def withoutIdleEnd (pieces : List (List Char)) : List (List Char) :=
  (pieces.reverse.dropWhile isIdle).reverse

def ofText (text : List Char) : Path :=
  let (start, rest) := takeStart text
  let steps := ((pieces '/' rest).filter fun piece => !isIdle piece).map String.ofList
  ⟨start = ['/'], if start = ['.'] then "." :: steps else steps⟩

/-- The text of the path that leads to where a path leads, up to its last step.
The root has none, and a path of one step the empty one. -/
def parentText? (text : List Char) : Option (List Char) :=
  let (start, rest) := takeStart text
  match withoutIdleEnd (pieces '/' rest) with
  | [] => if start = ['.'] then some [] else none
  | steps => some (start ++ List.intercalate ['/'] (withoutIdleEnd steps.dropLast))

end Path

end Depot.Files

namespace Depot

/-! ### Places -/

/-- The names that lead from the root to a directory or a file. -/
abbrev Files.Place := List String

inductive Files.Entry (α : Type) where
  | directory
  | file (content : α)

/-- Directories and files, and the place where paths without a root start. -/
structure Files (α : Type) where
  entries : Keyed Files.Place (Files.Entry α)
  home : Files.Place

namespace Files

/-- Why a directory cannot be reached or made. -/
inductive Trouble where
  /-- Nothing has the name. -/
  | missing
  /-- Something else has the name. -/
  | taken
  /-- No file can have the name. -/
  | badName
deriving DecidableEq, Repr

variable {α : Type}

/-- One empty directory, in which one is. -/
def empty : Files α :=
  ⟨Keyed.empty.put ["home"] .directory, ["home"]⟩

/-- Where a path starts. -/
def start (files : Files α) (path : Path) : Place :=
  if path.fromRoot then [] else files.home

def isDirectoryAt (files : Files α) (place : Place) : Bool :=
  place.isEmpty ||
    match files.entries.get? place with
    | some .directory => true
    | _ => false

def putFile (files : Files α) (place : Place) (content : α) : Files α :=
  { files with entries := files.entries.put place (.file content) }

/-- The files without the one at a place; a directory stays. -/
def withoutFile (files : Files α) (place : Place) : Files α :=
  match files.entries.get? place with
  | some (.file _) => { files with entries := files.entries.erase place }
  | _ => files

/-- The most bytes that a name has. -/
def longestName : Nat := 255

/-- The most bytes that the text of a path has. -/
def longestPath : Nat := 4095

/-- Whether a file can have the name. -/
def isName (name : String) : Bool :=
  name.utf8ByteSize ≤ longestName && !name.toList.contains '\x00'

/-- The directory that steps lead to. -/
def walk (files : Files α) (place : Place) : List String → Except Trouble Place
  | [] => .ok place
  | "." :: steps => walk files place steps
  | ".." :: steps => walk files place.dropLast steps
  | name :: steps =>
      if !isName name then .error .badName
      else
        match files.entries.get? (place ++ [name]) with
        | none => .error .missing
        | some (.file _) => .error .taken
        | some .directory => walk files (place ++ [name]) steps

/-- Make the directory with a name in the directory that steps lead to. -/
def makeDirectory (files : Files α) (place : Place) (steps : List String) (name : String) :
    Except Trouble (Files α) := do
  let parent ← files.walk place steps
  if name = "." || name = ".." || files.entries.has (parent ++ [name]) then .error .taken
  else if !isName name then .error .badName
  else return { files with entries := files.entries.put (parent ++ [name]) .directory }

def leadsToDirectory (files : Files α) (place : Place) (steps : List String) : Bool :=
  (files.walk place steps).isOk

/-- Make the directory that steps lead to, unless it is there. -/
def ensureDirectory (files : Files α) (place : Place) (steps : List String) (name : String) :
    Files α × Except Trouble Unit :=
  match files.makeDirectory place steps name with
  | .ok after => (after, .ok ())
  | .error trouble =>
      if files.leadsToDirectory place (steps ++ [name]) then (files, .ok ())
      else (files, .error trouble)

/-- Make the directory that steps lead to, and before it the one that contains it
where that is missing. The steps are listed from the last to the first. What was
made before a trouble stays. -/
def ensureSteps (files : Files α) (place : Place) :
    List String → Files α × Except Trouble Unit
  | [] => (files, .ok ())
  | name :: before =>
      match files.ensureDirectory place before.reverse name with
      | (_, .error .missing) =>
          match ensureSteps files place before with
          | (between, .ok ()) => between.ensureDirectory place before.reverse name
          | stuck => stuck
      | done => done

def isPath (text : List Char) : Bool :=
  (String.ofList text).utf8ByteSize ≤ longestPath && !text.contains '\x00'

/-- Make all directories that a path leads through, and the one that it leads
to. Nothing is made where the text can be no path at all. -/
def ensurePath (files : Files α) (text : List Char) : Files α × Except Trouble Unit :=
  let path := Path.ofText text
  if isPath text then files.ensureSteps (files.start path) path.steps.reverse
  else (files, .error .badName)

/-- The bytes of the text of a place, which has a slash before every name. -/
def Place.size (place : Place) : Nat :=
  (place.map fun name => name.utf8ByteSize + 1).foldr (· + ·) 0

/-- Whether a name may follow a place. Nothing follows a file. Where nothing is yet,
any name may follow. -/
def mayFollow (files : Files α) (place : Place) (name : String) : Bool :=
  match files.entries.get? place with
  | some (.file _) => false
  | _ => !files.isDirectoryAt place || isName name

/-- The place that a path names, whatever is there: each step back takes the name
before it away. The text of no place on the way may be longer than `longest`. -/
def placeOf? (files : Files α) (longest : Nat) (path : Path) : Option Place :=
  path.steps.foldlM
    (fun place step =>
      if step = "." then some place
      else if step = ".." then some place.dropLast
      else
        let next := place ++ [step]
        if files.mayFollow place step && next.size ≤ longest then some next else none)
    (files.start path)

/-- The rest of a place that is inside a directory. -/
def within? (directory place : Place) : Option Place :=
  if directory.isPrefixOf place && directory.length < place.length then
    some (place.drop directory.length)
  else none

/-- What is listed of an entry: its place in the directory, and a slash after the
name of a directory. -/
def listed (place : Place) : Entry α → String
  | .directory => "/".intercalate place ++ "/"
  | .file _ => "/".intercalate place

/-- All that is in the directory where one is, sorted by what is listed. -/
def list (files : Files α) : List String :=
  (files.entries.items.filterMap fun item =>
    (within? files.home item.1).map fun place => listed place item.2).mergeSort

end Files

end Depot
