import Depot.Keyed
import Depot.Text.Split

/-!
Contract: command lines, taken apart, and how a program ends.

What begins with two hyphens is an option; some options have a value, which
stands after an equals sign or in the next place. A value in the next place does
not begin with a hyphen. Each option is given once at most. After two hyphens
alone everything is a word.

Owns: options, values and words, and the code and the lines that are left when a
program has ended.
Does not own: what programs do (`Depot.Program.Console`, `Depot.Program.Tools`)
and how values are read (`Depot.Program.Values`).
-/

namespace Depot.Program

open Text

/-- Why a command line is not run. -/
inductive Usage where
  | wrong
  /-- The user wants to know how the program is used. -/
  | help
deriving DecidableEq, Repr

/-- The options that a command has. -/
structure Shape where
  /-- Those with a value. -/
  valued : List String
  /-- Those without. -/
  plain : List String

/-- What stands on a command line. -/
structure Given where
  values : Keyed String String
  flags : List String
  words : List String

namespace Given

def empty : Given := ⟨Keyed.empty, [], []⟩

def withValue (given : Given) (name value : String) : Except Usage Given :=
  if given.values.has name then .error .wrong
  else .ok { given with values := given.values.put name value }

def withFlag (given : Given) (name : String) : Except Usage Given :=
  if given.flags.contains name then .error .wrong
  else .ok { given with flags := given.flags ++ [name] }

def value? {α : Type} (given : Given) (name : String) (read : String → Except Usage α) :
    Except Usage (Option α) :=
  match given.values.get? name with
  | none => .ok none
  | some raw => (read raw).map some

/-- The value of an option that has to be given. -/
def needed (given : Given) (name : String) : Except Usage String :=
  match given.values.get? name with
  | none => .error .wrong
  | some raw => .ok raw

end Given

/-- What a single argument is. -/
inductive Argument where
  /-- Two hyphens alone. -/
  | break
  | option (name : String) (value : Option String)
  /-- Something else that begins with a hyphen. -/
  | letters (letters : List Char)
  | word
deriving DecidableEq, Repr

def Argument.of (raw : String) : Argument :=
  match raw.toList with
  | ['-', '-'] => .break
  | '-' :: '-' :: rest =>
      match cutAt? '=' rest with
      | some (name, value) => .option (String.ofList name) (some (String.ofList value))
      | none => .option (String.ofList rest) none
  | '-' :: letter :: rest => .letters (letter :: rest)
  | _ => .word

/-- Take a command line apart. Where only options are looked for, the first word
ends them. -/
def takeApart (shape : Shape) (untilWord : Bool) (given : Given) :
    List String → Except Usage Given
  | [] => .ok given
  | raw :: rest =>
      match Argument.of raw with
      | .break =>
          if untilWord then .error .wrong
          else .ok { given with words := given.words ++ rest }
      | .letters letters => .error (if letters.head? = some 'h' then .help else .wrong)
      | .word =>
          if untilWord then .ok { given with words := raw :: rest }
          else takeApart shape untilWord { given with words := given.words ++ [raw] } rest
      | .option name value =>
          if shape.plain.contains name then
            if value.isSome then .error .wrong
            else (given.withFlag name).bind fun given => takeApart shape untilWord given rest
          else if shape.valued.contains name then
            match value with
            | some value =>
                (given.withValue name value).bind fun given =>
                  takeApart shape untilWord given rest
            | none =>
                match rest with
                | [] => .error .wrong
                | next :: others =>
                    if Argument.of next = .word then
                      (given.withValue name next).bind fun given =>
                        takeApart shape untilWord given others
                    else .error .wrong
          else .error (if name = "help" && value.isNone then .help else .wrong)

/-- The options before the command, the command, and what follows it. -/
def takeCommand (options : Shape) (arguments : List String) :
    Except Usage (Given × String × List String) := do
  let given ← takeApart options true .empty arguments
  match given.words with
  | [] => .error .wrong
  | command :: rest => return (given, command, rest)

/-- A reading whose trouble is of no interest. -/
def usable {α : Type} (read : Except String α) : Except Usage α :=
  read.mapError fun _ => .wrong

def usable? {α : Type} (read? : Option α) : Except Usage α :=
  read?.elim (.error .wrong) .ok

/-! ### Ends -/

/-- What a program leaves behind. -/
structure Report where
  code : Nat
  output : List String
  errors : List String
deriving DecidableEq, Repr

namespace Report

def done (output : List String) : Report := ⟨0, output, []⟩

/-- The end of a program that could not go on. -/
def failed (output : List String) (message : String) : Report :=
  ⟨1, output, ["Error: " ++ message]⟩

/-- The end of a program whose command line is not run. -/
def ofUsage (usage : List String) : Usage → Report
  | .wrong => ⟨2, [], usage⟩
  | .help => ⟨0, usage, []⟩

end Report

end Depot.Program
