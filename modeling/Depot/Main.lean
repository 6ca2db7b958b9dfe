import Depot.Program.Tools
import Depot.Program.Console
import Depot.Program.Server

/-!
Contract: the programs as they are started.

The first argument chooses the program. Nothing here reaches beyond the process
but its arguments, its variables, the document with settings and its two
streams: requests of the console are lost, and databases last as long as the
process.

Owns: streams and the code at the end.
Does not own: what programs do (`Depot.Program`).
-/

namespace Depot.Program

/-- The ids that a process makes: they follow a random number. -/
def freshIds (start : Nat) (number : Nat) : String :=
  Identifier.ofNat (start + number)

/-- Requests that are lost. -/
def lost : Http.Exchange Unit := fun state _ => (state, none)

/-- The variables of the process that settings are taken from. -/
def settingNames : List String :=
  ["SERVER_BIND", "APP__BIND_ADDR", "DATABASE_URL", "APP__DATABASE_URL",
   "APP__REQUEST_BODY_LIMIT_BYTES"]

/-- The variables that are set. -/
def readEnvironment : IO (String → Option String) := do
  let found ← settingNames.mapM fun name => do return (name, ← IO.getEnv name)
  return fun name => (found.find? fun entry => entry.1 = name).bind Prod.snd

/-- The files of the server: the document with settings, if there is one. -/
def readFiles : IO (Files Database.Content) := do
  try
    let raw ← IO.FS.readFile Server.documentName
    let files : Files Database.Content := .empty
    return files.putFile (files.home ++ [Server.documentName]) (.text raw)
  catch _ => return .empty

def Report.print (report : Report) : IO UInt32 := do
  for line in report.output do IO.println line
  for line in report.errors do IO.eprintln line
  return UInt32.ofNat report.code

end Depot.Program

open Depot Depot.Program in
/-- Run the program that the first argument names. -/
def main (arguments : List String) : IO UInt32 := do
  match arguments with
  | "console" :: rest => (Console.run lost () rest).2.print
  | "tools" :: rest =>
      let bytes ← IO.getRandomBytes 16
      let start := bytes.foldl (fun number byte => number * 256 + byte.toNat) 0
      (Tools.run (freshIds start) .epoch Files.empty rest).2.print
  | "server" :: _ =>
      (Server.report (Server.start (← readFiles) (← readEnvironment)).2).print
  | _ => (Report.ofUsage ["usage: depot console|tools|server ..."] .wrong).print
