import Depot.Cache.Ask
import Depot.Http.Message
import Depot.Text.Split
import Depot.Wire.Request

/-!
Contract: a source of rows that is reached by requests.

An inquiry is a request and the reading of its response. A response that reports
success has to hold what was asked for. Any other one holds a rejection or says
no more than its status. A response that never comes, or whose body cannot be
read, counts as lost.

Owns: the inquiries for each kind of rows.
Does not own: how requests travel; an `Exchange` does that.
-/

namespace Depot.Http

open Text

/-- A way to send a request, on which a response may come back. -/
abbrev Exchange (σ : Type) := σ → Request → σ × Option Response

structure Client where
  /-- The address of the service, without slashes at its end. -/
  base : String
deriving DecidableEq, Repr

/-- A request for a value: its method, its path, and its body, if it has one. -/
structure Inquiry (α : Type) where
  method : String
  path : String
  body : Option String
  /-- The value of a response. -/
  read : Response → Except SourceFault α

/-- The value in the body of a response. -/
def Response.read (α : Type) [Wire α] (response : Response) : Except SourceFault α :=
  if response.isSuccess then
    match Wire.read α response.body with
    | .ok value => .ok value
    | .error _ => .error .transport
  else
    match Wire.read Rejection response.body with
    | .ok rejection => .error (.rejected rejection)
    | .error _ => .error (.status response.status)

namespace Inquiry

def get (α : Type) [Wire α] (path : String) : Inquiry α :=
  ⟨"GET", path, none, Response.read α⟩

def post {β : Type} [Wire β] (α : Type) [Wire α] (path : String) (value : β) : Inquiry α :=
  ⟨"POST", path, some (Wire.write value), Response.read α⟩

def map {α β : Type} (change : α → β) (inquiry : Inquiry α) : Inquiry β :=
  { inquiry with read := fun response => (inquiry.read response).map change }

def shipments (direction : Direction) : Inquiry (List Shipment) :=
  get (List Shipment) ("/invoices?kind=" ++ direction.word)

def shipment (direction : Direction) (number : Int64) : Inquiry ShipmentDetail :=
  get ShipmentDetail
    ("/invoices/" ++ direction.word ++ "/" ++ String.ofList (intText number.toInt))

def requisitions : Inquiry (List Requisition) :=
  get (List Requisition) "/requisitions"

/-- The deletion of records, and their number. -/
def delete (path : String) (targets : List Target) : Inquiry Nat :=
  (post DeleteAnswer path (DeleteRequest.mk targets)).map fun answer => answer.deleted.toNat

/-- The pack update of a line; services have none. -/
def packUpdate? (line : Line) : Option PackUpdate :=
  line.content.packs?.map fun packs => ⟨line.id, line.shipmentId, packs⟩

/-- The storing of pack counts, and the number of lines. -/
def updateLines (lines : List Line) : Inquiry Nat :=
  (post UpdateAnswer "/invoice-lines/update"
    (UpdateRequest.mk (lines.filterMap packUpdate?))).map fun answer => answer.updated.toNat

end Inquiry

/-- Rows that a service has. -/
class Served (ρ : Type) where
  /-- The rows of a list. -/
  fetch : ListKey → Except SourceFault (Inquiry (List ρ))
  /-- The path to which deletions go. -/
  deletePath : String
  /-- The storing of changed rows. -/
  update : List ρ → Except SourceFault (Inquiry Nat)

/-- The fault of rows that a service stores no changes of. -/
def unchangeable : SourceFault := .unavailable "rows of this kind are not updated"

instance : Served Line where
  fetch
    | .shipment direction number =>
        .ok ((Inquiry.shipment direction number).map ShipmentDetail.lines)
    | key => .error (.unsupported key)
  deletePath := "/invoice-lines/delete"
  update lines := .ok (Inquiry.updateLines lines)

instance : Served Shipment where
  fetch
    | .shipments direction => .ok (Inquiry.shipments direction)
    | key => .error (.unsupported key)
  deletePath := "/invoices/delete"
  update _ := .error unchangeable

instance : Served Requisition where
  fetch
    | .requisitions => .ok Inquiry.requisitions
    | key => .error (.unsupported key)
  deletePath := "/requisitions/delete"
  update _ := .error unchangeable

namespace Client

variable {σ : Type}

def ofUrl (url : String) : Client :=
  ⟨String.ofList (withoutTrailing '/' url.toList)⟩

/-- The path of an address, after its scheme and its host. An address without a
scheme leads nowhere. -/
def path? (url : String) : Option String :=
  match cutAt? ':' url.toList with
  | some (_, '/' :: '/' :: rest) =>
      some (String.ofList (rest.dropWhile fun character => character ≠ '/'))
  | _ => none

def request? {α : Type} (client : Client) (inquiry : Inquiry α) : Option Request :=
  (path? (client.base ++ inquiry.path)).map fun target =>
    ⟨inquiry.method, target, inquiry.body.map fun _ => "application/json",
      inquiry.body.map String.utf8ByteSize, inquiry.body.getD ""⟩

def inquire {α : Type} (client : Client) (exchange : Exchange σ) (state : σ)
    (inquiry : Inquiry α) : σ × Except SourceFault α :=
  match client.request? inquiry with
  | none => (state, .error .transport)
  | some request =>
      match exchange state request with
      | (after, none) => (after, .error .transport)
      | (after, some response) => (after, inquiry.read response)

def inquireIf {α : Type} (client : Client) (exchange : Exchange σ) (state : σ) :
    Except SourceFault (Inquiry α) → σ × Except SourceFault α
  | .error fault => (state, .error fault)
  | .ok inquiry => client.inquire exchange state inquiry

/-- Reply to a question by an inquiry. -/
def reply {ρ : Type} [Served ρ] (client : Client) (exchange : Exchange σ) (state : σ) :
    (ask : Ask ρ) → σ × ask.Reply
  | .fetch key => client.inquireIf exchange state (Served.fetch key)
  | .remove targets => client.inquire exchange state (.delete (Served.deletePath ρ) targets)
  | .update rows => client.inquireIf exchange state (Served.update rows)

end Client

end Depot.Http
