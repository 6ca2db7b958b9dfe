import Depot.Stock.Rejection
import Depot.Text.Character
import Depot.Text.Split

/-!
Contract: requests and responses, and whether the type of a body is JSON.

A media type is a type and a subtype, and parameters after semicolons. A plus
sign splits the subtype into a main part and a suffix. Case does not count. A
type is JSON when it is an application type with `json` as its main part or as
its suffix.

Owns: the two messages, the statuses that the service uses, and the grammar of
media types as far as that question needs it.
Does not own: their meaning (`Depot.Http.Router`, `Depot.Http.Client`).
-/

namespace Depot.Http

/-- A request. The target is the path, with the query after a question mark. -/
structure Request where
  method : String
  target : String
  contentType : Option String
  /-- The length of the body, where the request states it beforehand. -/
  contentLength : Option Nat
  body : String
deriving DecidableEq, Repr

structure Response where
  status : Nat
  body : String
deriving DecidableEq, Repr

/-- Whether the response says that the request was carried out. -/
def Response.isSuccess (response : Response) : Bool :=
  200 ≤ response.status && response.status < 300

def Response.bare (status : Nat) : Response := ⟨status, ""⟩

def statusOf : RejectionCode → Nat
  | .notFound => 404
  | .validation => 400
  | .forbidden => 403
  | .internal => 500

end Depot.Http

namespace Depot.Http.MediaType

open Text

/-! ### Media types -/

/-- Whether the character may stand in a name. -/
def isToken (character : Char) : Bool :=
  isDigit character || isLetter character || "!#$%&'*+-.^_\x60|~".toList.contains character

/-- Whether the character may stand between quotes, apart from the quote itself. -/
def isQuoted (character : Char) : Bool :=
  ' ' ≤ character && character ≤ '~' && character ≠ '"'

/-- Whether the text is what may follow a value in quotes: spaces, then nothing
or another parameter. The rest is what follows the semicolon. -/
def afterQuoted? (text : List Char) : Option (List Char) :=
  match text.dropWhile (· == ' ') with
  | [] => some []
  | ';' :: rest => some rest
  | _ => none

/-- The value of a parameter; the rest is what follows its semicolon. A value in
quotes has at least one character, and the first may be a quote. -/
def takeValue? (text : List Char) : Option (List Char) :=
  match text with
  | ['"'] => none
  | '"' :: first :: quoted =>
      if isQuoted first || first = '"' then
        match quoted.dropWhile isQuoted with
        | '"' :: rest => afterQuoted? rest
        | _ => none
      else none
  | _ =>
      match text.dropWhile isToken with
      | [] => some []
      | ';' :: rest => if (text.takeWhile isToken).isEmpty then none else some rest
      | _ => none

/-- One parameter; the rest is what follows its semicolon. -/
def takeParameter? (text : List Char) : Option (List Char) :=
  let name := text.takeWhile isToken
  match text.dropWhile isToken with
  | '=' :: value => if name.isEmpty then none else takeValue? value
  | _ => none

/-- Whether the text is a list of parameters. The fuel bounds their number. -/
def areParameters : (fuel : Nat) → List Char → Bool
  | 0, text => text.isEmpty
  | fuel + 1, text =>
      match text.dropWhile (· == ' ') with
      | [] => true
      | parameter =>
          match takeParameter? parameter with
          | some rest => areParameters fuel rest
          | none => false

/-- The main part and the suffix of a subtype, around its last plus sign. A plus
sign at the beginning splits nothing. -/
def splitSuffix (subtype : List Char) : List Char × Option (List Char) :=
  match cutAt? '+' subtype.reverse with
  | some (suffix, main) =>
      if main.isEmpty then (subtype, none) else (main.reverse, some suffix.reverse)
  | none => (subtype, none)

/-- Whether the text is a media type that stands for JSON. -/
def isJson (text : String) : Bool :=
  let plain := lower text.toList
  match cutAt? '/' plain with
  | none => false
  | some (name, rest) =>
      let subtype := rest.takeWhile isToken
      let parameters := rest.dropWhile isToken
      let isWellFormed := name.all isToken && match parameters with
        | [] => true
        | ';' :: others => !subtype.isEmpty && areParameters text.length others
        | _ => false
      let (main, suffix) := splitSuffix subtype
      isWellFormed && name = "application".toList &&
        (main = "json".toList || suffix = some "json".toList)

end Depot.Http.MediaType
