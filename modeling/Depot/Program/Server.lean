import Depot.Database.Opening
import Depot.Http.Router
import Depot.Program.Arguments
import Depot.Settings.Address
import Depot.Settings.Basic

/-!
Contract: the program that serves requests, up to the point where it listens.

The program reads its settings, makes the directory of its database, opens the
database and looks at the address to listen at, in this order. The first trouble
ends it.

Owns: the order of these moves, and the answers of a server that was started.
Does not own: what is answered (`Depot.Http.Router`), and listening.
-/

namespace Depot.Program

/-- A server that is ready to listen. -/
structure Server where
  address : String
  bodyLimit : Nat
  database : Database
deriving DecidableEq

namespace Server

def documentName : String := "server.toml"

/-- The document with settings, if there is one. -/
def document? (files : Files Database.Content) : Option String :=
  match files.entries.get? (files.home ++ [documentName]) with
  | some (.file (.text raw)) => some raw
  | _ => none

/-- Start a server, or say why there is none. -/
def start (files : Files Database.Content) (environment : String → Option String) :
    Files Database.Content × Except String Server :=
  let settings := Settings.ofSources (document? files) environment
  match Database.prepare files settings.databaseUrl with
  | (after, .error fault) => (after, .error fault.message)
  | (after, .ok url) =>
      match Database.opened after url with
      | (after, .error fault) => (after, .error fault.message)
      | (after, .ok database) =>
          if Settings.Address.isAddress settings.bind.toList then
            (after, .ok ⟨settings.bind, settings.bodyLimit, database⟩)
          else (after, .error "invalid socket address syntax")

def answer (server : Server) (request : Http.Request) : Server × Http.Response :=
  let (database, response) := Http.Router.answer server.bodyLimit server.database request
  ({ server with database }, response)

def report : Except String Server → Report
  | .ok _ => .done []
  | .error message => .failed [] message

end Server

end Depot.Program
