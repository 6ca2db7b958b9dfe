import Depot.Database.Lines
import Depot.Database.Opening
import Depot.Database.Requisitions
import Depot.Program.Arguments
import Depot.Program.Values

/-!
Contract: the program for those who run the service.

A command makes records, or changes their status, directly in the database. It
prints one line that says what was done, or fails with what is wrong. New records
get random ids of version 4: 122 bits that are free, the version and the variant.

Owns: the commands, their arguments and their output, and the form of the ids.
Does not own: what the database does (`Depot.Database`).
-/

namespace Depot

open Text

/-! ### Ids -/

/-- The id whose free bits hold a number. -/
def Identifier.ofNat (number : Nat) : String :=
  String.ofList <|
    hexText 8 (number / Nat.pow 2 90) ++ '-' :: hexText 4 (number / Nat.pow 2 74) ++
      '-' :: '4' :: hexText 3 (number / Nat.pow 2 62) ++
      '-' :: hexChar (8 + number / Nat.pow 2 60 % 4) :: hexText 3 (number / Nat.pow 2 48) ++
      '-' :: hexText 12 number

end Depot

namespace Depot.Program

open Text

/-! ### Commands -/

/-- A line that is to be added. -/
structure Tools.Draft where
  isService : Bool
  code : String
  name : String
  batch : Option String
  expiry : Option Calendar.Date
  packSize : UInt32
  packs : Decimal.Binary64
  /-- The price of a pack, or the total of a service. -/
  price : Decimal.Binary64
  note : Option String
deriving DecidableEq

inductive Tools.Command where
  | createShipment (direction : Direction) (party : String)
  | addLine (direction : Direction) (number : Int64) (draft : Tools.Draft)
  | setShipmentStatus (direction : Direction) (number : Int64) (status : ShipmentStatus)
  | setOnHold (direction : Direction) (number : Int64) (onHold : Bool)
  | createRequisition (party : String)
  | setRequisitionStatus (id : String) (status : RequisitionStatus)
deriving DecidableEq

namespace Tools

/-- The address of the database where none is given. -/
def usualUrl : String := "sqlite://stockroom.db"

def usage : List String :=
  ["usage: tools [--database-url URL] COMMAND",
   "  create-invoice KIND PARTY",
   "  add-line KIND NUMBER --item-code CODE --item-name NAME [--line stock|service]",
   "    [--batch BATCH] [--expiry-date DATE] [--pack-size SIZE] [--packs COUNT]",
   "    [--price PRICE] [--note NOTE]",
   "  set-invoice-status KIND NUMBER STATUS",
   "  set-on-hold KIND NUMBER true|false",
   "  create-requisition PARTY",
   "  set-requisition-status ID STATUS"]

def commandNames : List String :=
  ["create-invoice", "add-line", "set-invoice-status", "set-on-hold", "create-requisition",
   "set-requisition-status"]

def lineOptions : List String :=
  ["line", "item-code", "item-name", "batch", "expiry-date", "pack-size", "packs", "price",
   "note"]

def readIsService (raw : String) : Except Usage Bool :=
  match raw with
  | "stock" => .ok false
  | "service" => .ok true
  | _ => .error .wrong

def readDraft (given : Given) : Except Usage Draft := do
  return {
    isService := (← given.value? "line" readIsService).getD false
    code := ← given.needed "item-code"
    name := ← given.needed "item-name"
    batch := ← given.value? "batch" readText
    expiry := ← given.value? "expiry-date" readDay
    packSize := (← given.value? "pack-size" readPackSize).getD 1
    packs := (← given.value? "packs" readDouble).getD (.ofNat 1)
    price := (← given.value? "price" readDouble).getD .zero
    note := ← given.value? "note" readText }

def readCommand (name : String) (arguments : List String) : Except Usage Command := do
  let take := fun valued => takeApart ⟨valued, []⟩ false .empty arguments
  match name with
  | "create-invoice" =>
      match (← take []).words with
      | [direction, party] => return .createShipment (← usable (readDirection direction)) party
      | _ => .error .wrong
  | "add-line" =>
      let given ← take lineOptions
      match given.words with
      | [direction, number] =>
          return .addLine (← usable (readDirection direction)) (← readNumber number)
            (← readDraft given)
      | _ => .error .wrong
  | "set-invoice-status" =>
      match (← take []).words with
      | [direction, number, status] =>
          return .setShipmentStatus (← usable (readDirection direction)) (← readNumber number)
            (← usable (readShipmentStatus status))
      | _ => .error .wrong
  | "set-on-hold" =>
      match (← take []).words with
      | [direction, number, onHold] =>
          return .setOnHold (← usable (readDirection direction)) (← readNumber number)
            (← readTruth onHold)
      | _ => .error .wrong
  | "create-requisition" =>
      match (← take []).words with
      | [party] => return .createRequisition party
      | _ => .error .wrong
  | "set-requisition-status" =>
      match (← take []).words with
      | [id, status] => return .setRequisitionStatus id (← usable (readRequisitionStatus status))
      | _ => .error .wrong
  | "help" => .error (if arguments.all commandNames.contains then .help else .wrong)
  | _ => .error .wrong

def readArguments (arguments : List String) : Except Usage (String × Command) := do
  let (given, name, rest) ← takeCommand ⟨["database-url"], []⟩ arguments
  return ((given.values.get? "database-url").getD usualUrl, ← readCommand name rest)

def Draft.item (draft : Draft) : Item :=
  ⟨"item-" ++ lowered draft.code, draft.code, draft.name⟩

/-- The content of a line that is to be added; `stockLineId` is the stock that an
outbound line is taken from. -/
def Draft.content (draft : Draft) (direction : Direction) (stockLineId : String) :
    LineContent :=
  let stock : Stock := ⟨draft.batch, draft.expiry, draft.packSize, draft.packs⟩
  if draft.isService then .service draft.price draft.note
  else
    match direction with
    | .inbound => .stockIn stock draft.price
    | .outbound => .stockOut stockLineId stock draft.price

/-- A shipment as it is called in messages. -/
def called (direction : Direction) (number : Int64) : String :=
  direction.word ++ " invoice #" ++ String.ofList (intText number.toInt)

/-- Go on with the shipment of a direction and a number. -/
def withShipment {α : Type} (database : Database) (direction : Direction) (number : Int64)
    (next : Shipment → Database × Except Database.Fault α) :
    Database × Except Database.Fault α :=
  match database.shipmentByNumber direction number with
  | .error fault => (database, .error fault)
  | .ok none => (database, .error (.failed ("no " ++ called direction number)))
  | .ok (some shipment) => next shipment

/-- A change with its answer put into words. -/
def saying {α : Type} (text : α → String) (change : Database × Except Database.Fault α) :
    Database × Except Database.Fault String :=
  (change.1, change.2.map text)

/-- Run a command and say what was done. The ids of new records are the first two
of a supply. -/
def runCommand (fresh : Nat → String) (now : Calendar.Instant) (database : Database) :
    Command → Database × Except Database.Fault String
  | .createShipment direction party =>
      saying (fun shipment => "created " ++ called direction shipment.number ++ " id=" ++
          shipment.id)
        (database.createShipment (fresh 0) now direction party)
  | .addLine direction number draft =>
      withShipment database direction number fun shipment =>
        saying (fun line => "added " ++ line.kind.word ++ " line id=" ++ line.id ++ " to " ++
            called direction number)
          (database.addLine (fresh 0) shipment.id draft.item
            (draft.content direction (fresh 1)))
  | .setShipmentStatus direction number status =>
      withShipment database direction number fun shipment =>
        saying (fun _ => called direction number ++ " is now " ++ status.word)
          (database.setShipmentStatus shipment.id status)
  | .setOnHold direction number onHold =>
      withShipment database direction number fun shipment =>
        saying (fun _ => called direction number ++ " on_hold=" ++
            if onHold then "true" else "false")
          (database.setShipmentHold shipment.id onHold)
  | .createRequisition party =>
      saying (fun requisition => "created requisition #" ++
          String.ofList (intText requisition.number.toInt) ++ " id=" ++ requisition.id)
        (database.createRequisition (fresh 0) now party)
  | .setRequisitionStatus id status =>
      match database.setRequisitionStatus id status with
      | (after, .ok true) => (after, .ok ("requisition " ++ id ++ " is now " ++ status.word))
      | (after, .ok false) => (after, .error (.failed ("no requisition with id " ++ id)))
      | (after, .error fault) => (after, .error fault)

def report : Except Database.Fault String → Report
  | .ok line => .done [line]
  | .error fault => .failed [] fault.message

def run (fresh : Nat → String) (now : Calendar.Instant)
    (files : Files Database.Content) (arguments : List String) :
    Files Database.Content × Report :=
  match readArguments arguments with
  | .error trouble => (files, .ofUsage usage trouble)
  | .ok (url, command) =>
      let (after, done) :=
        Database.change files url fun database => runCommand fresh now database command
      (after, report done)

end Tools

end Depot.Program
