import Depot.Decimal.Notation
import Depot.Edit.Call
import Depot.Http.Client
import Depot.Program.Arguments
import Depot.Program.Values
import Depot.Screen.Basic
import Depot.Screen.Shipment

/-!
Contract: the program for users of the service.

A command opens a screen, shows what is on it or edits it, and prints what the
user is told. The program fails when a screen cannot be opened, and when an edit
is turned down or rolled back.

Owns: the commands, their arguments and their output.
Does not own: screens and edits (`Depot.Screen`, `Depot.Edit`), and how requests
travel.
-/

namespace Depot

open Text

/-! ### Records as text -/

/-- A line in one line of text. -/
def Line.describe (line : Line) : String :=
  let fields := line.id ++ "  " ++ line.item.code ++ "  " ++ line.item.name ++ "  " ++
    line.kind.word
  match line.content with
  | .service total _ => fields ++ "  total=" ++ String.ofList (Decimal.fixedText 2 total)
  | .stockIn stock _ | .stockOut _ stock _ =>
      fields ++ "  batch=" ++ stock.batch.getD "-" ++
        "  expiry=" ++ (stock.expiry.elim "-" fun date => String.ofList date.text) ++
        "  pack_size=" ++ String.ofList (natText stock.packSize.toNat) ++
        "  packs=" ++ String.ofList (Decimal.plainText stock.packs)

def ShipmentScreen.describeHeader (screen : ShipmentScreen) : String :=
  screen.header.direction.word ++ " invoice #" ++
    String.ofList (intText screen.header.number.toInt) ++ "  " ++ screen.header.party ++
    "  status=" ++ screen.header.status.word ++
    (if screen.isDisabled then "  (read only)" else "")

def ItemGroup.describe (group : ItemGroup) : String :=
  group.item.id ++ "  " ++ group.item.code ++ "  " ++ group.item.name ++
    "  (" ++ String.ofList (natText group.lines.length) ++ " lines)"

end Depot

namespace Depot.Program

open Http Text

/-! ### Commands -/

inductive Console.Command where
  | lines (direction : Direction) (number : Int64) (sort : Option SortKey) (descending : Bool)
  | items (direction : Direction) (number : Int64)
  | nextItem (direction : Direction) (number : Int64) (itemId : String)
  | deleteLines (direction : Direction) (number : Int64) (grouped : Bool) (ids : List String)
  | deleteShipments (direction : Direction) (numbers : List Int64)
  | deleteRequisitions (numbers : List Int64)
  | setPacks (direction : Direction) (number : Int64)
      (changes : List (String × Decimal.Binary64))
deriving DecidableEq

namespace Console

/-- The address of the service where none is given. -/
def usualUrl : String := "http://127.0.0.1:8443"

def usage : List String :=
  ["usage: console [--server-url URL] COMMAND",
   "  lines KIND NUMBER [--sort KEY] [--desc]",
   "  items KIND NUMBER",
   "  next-item KIND NUMBER ITEM",
   "  delete-lines KIND NUMBER [--grouped] ID...",
   "  delete-invoices KIND NUMBER...",
   "  delete-requisitions NUMBER...",
   "  set-packs KIND NUMBER LINE=PACKS..."]

def commandNames : List String :=
  ["lines", "items", "next-item", "delete-lines", "delete-invoices", "delete-requisitions",
   "set-packs"]

def readShipment (direction number : String) : Except Usage (Direction × Int64) := do
  return (← usable (readDirection direction), ← readNumber number)

def readCommand (name : String) (arguments : List String) : Except Usage Command := do
  let take := fun valued plain => takeApart ⟨valued, plain⟩ false .empty arguments
  match name with
  | "lines" =>
      let given ← take ["sort"] ["desc"]
      match given.words with
      | [direction, number] =>
          let (direction, number) ← readShipment direction number
          let sort ← given.value? "sort" fun raw => usable (readSortKey raw)
          return .lines direction number sort (given.flags.contains "desc")
      | _ => .error .wrong
  | "items" =>
      match (← take [] []).words with
      | [direction, number] =>
          let (direction, number) ← readShipment direction number
          return .items direction number
      | _ => .error .wrong
  | "next-item" =>
      match (← take [] []).words with
      | [direction, number, itemId] =>
          let (direction, number) ← readShipment direction number
          return .nextItem direction number itemId
      | _ => .error .wrong
  | "delete-lines" =>
      let given ← take [] ["grouped"]
      match given.words with
      | direction :: number :: id :: ids =>
          let (direction, number) ← readShipment direction number
          return .deleteLines direction number (given.flags.contains "grouped") (id :: ids)
      | _ => .error .wrong
  | "delete-invoices" =>
      match (← take [] []).words with
      | direction :: number :: numbers =>
          return .deleteShipments (← usable (readDirection direction))
            (← (number :: numbers).mapM readNumber)
      | _ => .error .wrong
  | "delete-requisitions" =>
      match (← take [] []).words with
      | number :: numbers => return .deleteRequisitions (← (number :: numbers).mapM readNumber)
      | _ => .error .wrong
  | "set-packs" =>
      match (← take [] []).words with
      | direction :: number :: change :: changes =>
          let (direction, number) ← readShipment direction number
          return .setPacks direction number
            (← (change :: changes).mapM fun raw => usable (readPackChange raw))
      | _ => .error .wrong
  | "help" => .error (if arguments.all commandNames.contains then .help else .wrong)
  | _ => .error .wrong

def readArguments (arguments : List String) : Except Usage (String × Command) := do
  let (given, name, rest) ← takeCommand ⟨["server-url"], []⟩ arguments
  return ((given.values.get? "server-url").getD usualUrl, ← readCommand name rest)

def faultText (fault : SourceFault) : String :=
  fault.message?.getD "transport failure"

/-- What the user was told, in the lines that go to the output. -/
def told {ρ : Type} (desk : Desk ρ) : List String :=
  (desk.notifications.filter fun notification => notification.severity ≠ .error).map
    fun notification => notification.notice.text

/-- What the user was told, in the lines that go to the errors. -/
def complained {ρ : Type} (desk : Desk ρ) : List String :=
  (desk.notifications.filter fun notification => notification.severity = .error).map
    fun notification => "error: " ++ notification.notice.text

def codeOf : Outcome → Nat
  | .rejected _ | .rolledBack => 1
  | .skipped _ | .committed _ => 0

section Running

variable {ρ σ : Type} [Row ρ] [Served ρ]

/-- Run an edit and report what came of it. -/
def edit (client : Client) (exchange : Exchange σ) (state : σ)
    (started : Desk ρ × Edit.Progress ρ) : σ × Report :=
  let ((after, desk), finding) :=
    Desk.run (client.reply exchange) state (Desk.startEdit started)
  match finding with
  | .outcome outcome => (after, ⟨codeOf outcome, told desk, complained desk⟩)
  | .rows _ | .mutation _ => (after, .done [])

/-- Look at the list under a key and go on with its rows. -/
def withRows (client : Client) (exchange : Exchange σ) (state : σ) (desk : Desk ρ)
    (key : ListKey) (output : List String) (next : σ → Desk ρ → List ρ → σ × Report) :
    σ × Report :=
  let ((after, desk), finding) :=
    Desk.run (client.reply exchange) state (desk.startEnsure key)
  match finding with
  | .rows (.ok rows) => next after desk rows
  | .rows (.error fault) => (after, .failed output (faultText fault))
  | .mutation _ | .outcome _ => (after, .done output)

/-- Delete the records of a list that have given numbers. -/
def deleteNumbers (client : Client) (exchange : Exchange σ) (state : σ)
    (screen : ListScreen ρ) (number : ρ → Int64) (numbers : List Int64) : σ × Report :=
  withRows client exchange state Desk.empty screen.key [] fun state desk rows =>
    let ids := numbers.filterMap fun wanted =>
      (rows.find? fun row => number row = wanted).map Row.id
    let screen := { screen with selection := screen.selection.selectAll ids }
    edit client exchange state (desk.remove (screen.removal desk.cache))

end Running

section Shipments

variable {σ : Type}

/-- Open the screen of a shipment and go on with it. The lines that come with the
shipment are kept. -/
def withShipment (client : Client) (exchange : Exchange σ) (state : σ)
    (direction : Direction) (number : Int64)
    (next : σ → Desk Line → ShipmentScreen → σ × Report) : σ × Report :=
  match client.inquire exchange state (.shipment direction number) with
  | (after, .error fault) =>
      (after, .failed [] ("cannot open " ++ direction.word ++ " invoice #" ++
        String.ofList (intText number.toInt) ++ ": " ++ faultText fault))
  | (after, .ok detail) =>
      let cache := Cache.empty.set (.shipment direction number) detail.lines
      next after ⟨cache, []⟩ (.opened detail.shipment)

/-- Show lines under the header of a shipment. -/
def showRows (client : Client) (exchange : Exchange σ) (state : σ) (desk : Desk Line)
    (screen : ShipmentScreen) (describe : List Line → List String) : σ × Report :=
  let header := [screen.describeHeader]
  withRows client exchange state desk screen.key header fun state _ rows =>
    (state, .done (header ++ describe rows))

def runCommand (client : Client) (exchange : Exchange σ) (state : σ) : Command → σ × Report
  | .lines direction number sort descending =>
      withShipment client exchange state direction number fun state desk screen =>
        let screen := sort.elim screen fun key => screen.withSorting ⟨key, descending⟩
        showRows client exchange state desk screen fun rows =>
          (screen.lines rows).map Line.describe
  | .items direction number =>
      withShipment client exchange state direction number fun state desk screen =>
        showRows client exchange state desk screen fun rows =>
          (screen.groups rows).map ItemGroup.describe
  | .nextItem direction number itemId =>
      withShipment client exchange state direction number fun state desk screen =>
        withRows client exchange state desk screen.key [] fun state _ rows =>
          (state, .done [(screen.nextLine? itemId rows).elim "no next item" Line.describe])
  | .deleteLines direction number grouped ids =>
      withShipment client exchange state direction number fun state desk screen =>
        let screen := screen.withGrouped grouped
        let screen := { screen with selection := screen.selection.selectAll ids }
        edit client exchange state (desk.remove (screen.removal desk.cache))
  | .deleteShipments direction numbers =>
      deleteNumbers client exchange state (.shipments direction) Shipment.number numbers
  | .deleteRequisitions numbers =>
      deleteNumbers client exchange state .requisitions Requisition.number numbers
  | .setPacks direction number changes =>
      withShipment client exchange state direction number fun state desk screen =>
        edit client exchange state (desk.update (screen.packUpdate changes desk.cache))

end Shipments

def run {σ : Type} (exchange : Exchange σ) (state : σ) (arguments : List String) : σ × Report :=
  match readArguments arguments with
  | .error trouble => (state, .ofUsage usage trouble)
  | .ok (url, command) => runCommand (.ofUrl url) exchange state command

end Console

end Depot.Program
