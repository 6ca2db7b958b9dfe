import Depot.Database.Url
import Depot.Toml.Reader

/-!
Contract: the settings of the service and where they come from.

There are three sources: what is usual, a document, and named variables. A later
source wins over an earlier one, and so does the longer of two names for the same
setting. A document that cannot be read, or that has one setting of the wrong
kind, is left out as a whole; a variable that cannot be read is left out alone.

Owns: the settings, their names, and the order of the sources.
Does not own: the form of documents (`Depot.Toml`).
-/

namespace Depot

open Text

structure Settings where
  /-- The address to listen at. -/
  bind : String
  databaseUrl : String
  /-- The most bytes that the body of a request has. -/
  bodyLimit : Nat
deriving DecidableEq, Repr

namespace Settings

/-- What holds where no source has a setting. -/
def usual : Settings :=
  ⟨"127.0.0.1:8443", String.ofList Database.Url.usual, 1048576⟩

/-- The text under a key of a document, if the key is there. It fails where the
value is no text. -/
def readText? (members : Toml.Members) (key : String) : Option (Option String) :=
  match Toml.member? key members with
  | none => some none
  | some (.string value) => some (some value)
  | some _ => none

/-- The number under a key of a document, if the key is there. It fails where the
value is no number or below zero. -/
def readNumber? (members : Toml.Members) (key : String) : Option (Option Nat) :=
  match Toml.member? key members with
  | none => some none
  | some (.integer (.ofNat value)) => some (some value)
  | some _ => none

/-- The settings that a document changes, unless it cannot be read. -/
def withDocument? (settings : Settings) (text : String) : Option Settings := do
  let members ← Toml.read? text
  let bind? ← readText? members "bind_addr"
  let databaseUrl? ← readText? members "database_url"
  let bodyLimit? ← readNumber? members "request_body_limit_bytes"
  return ⟨bind?.getD settings.bind, databaseUrl?.getD settings.databaseUrl,
    bodyLimit?.getD settings.bodyLimit⟩

/-- The last of the variables that is given, or else what was there before. -/
def lastOf (environment : String → Option String) (before : String) (names : List String) :
    String :=
  names.foldl (fun value name => (environment name).getD value) before

def withVariables (settings : Settings) (environment : String → Option String) : Settings where
  bind := lastOf environment settings.bind ["SERVER_BIND", "APP__BIND_ADDR"]
  databaseUrl := lastOf environment settings.databaseUrl ["DATABASE_URL", "APP__DATABASE_URL"]
  bodyLimit :=
    ((environment "APP__REQUEST_BODY_LIMIT_BYTES").bind fun value =>
      readNat? (Nat.pow 2 64) value.toList).getD settings.bodyLimit

def ofSources (document : Option String) (environment : String → Option String) : Settings :=
  ((document.bind usual.withDocument?).getD usual).withVariables environment

end Settings

end Depot
