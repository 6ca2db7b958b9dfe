import Depot.Text.Character
import Depot.Text.Split

/-!
Contract: the addresses of databases.

An address names a file or asks for a database in memory. Its settled form
begins with a scheme and has slashes between names. A path that begins with the
letter of a drive keeps the scheme without slashes, so that the letter is not
taken for a host.

There are two readings of the file that an address names. The one for preparing
holds every address that begins as memory does for memory; the one for opening
holds only the bare address of memory for it.

Owns: settled forms and the file of an address.
Does not own: the parameters of an address and what is done with it
(`Depot.Database.Opening`).
-/

namespace Depot.Database.Url

open Text

def scheme : List Char := "sqlite:".toList

def schemeWithSlashes : List Char := "sqlite://".toList

def memory : List Char := "sqlite::memory:".toList

/-- The address that stands for a blank one. -/
def usual : List Char := "sqlite://./data/stockroom.db".toList

/-- Whether a path begins with the letter of a drive: a letter and a colon, and
then a slash of either kind or nothing. -/
def hasDrive : List Char → Bool
  | [letter, ':'] => isLetter letter
  | letter :: ':' :: next :: _ => isLetter letter && (next = '/' || next = '\\')
  | _ => false

def withSlashes (path : List Char) : List Char :=
  path.map fun character => if character = '\\' then '/' else character

/-- The settled form of an address. -/
def settled (raw : List Char) : List Char :=
  let url := trim raw
  if url.isEmpty then usual
  else if memory.isPrefixOf url then url
  else
    match rest? schemeWithSlashes url with
    | some path => if hasDrive path then scheme ++ withSlashes path else url
    | none =>
        if hasWithin "://".toList url then url
        else
          let path := withSlashes ((rest? scheme url).getD url)
          if hasDrive path then scheme ++ path else schemeWithSlashes ++ path

/-- The address without its scheme, however often that is written. -/
def withoutScheme (url : List Char) : List Char :=
  withoutLeading "sqlite:" (withoutLeading "sqlite://" url)

/-- What stands between the scheme and the parameters, unless that is nothing. -/
def path? (url : List Char) : Option (List Char) :=
  let path := before '?' (withoutScheme url)
  if path.isEmpty then none else some path

/-- The file whose directory is made before a database is used. -/
def preparedFile? (url : List Char) : Option (List Char) :=
  if memory.isPrefixOf url || !scheme.isPrefixOf url then none else path? url

/-- The file whose directory is made when a database is opened. -/
def openedFile? (url : List Char) : Option (List Char) :=
  if url = memory || !scheme.isPrefixOf url then none else path? url

end Depot.Database.Url
