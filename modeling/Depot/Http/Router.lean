import Depot.Http.Message
import Depot.Service.Basic
import Depot.Text.Percent

/-!
Contract: how requests reach the service.

A target may name a host before its path, which makes no difference. The path
names a route and the method has to be the route's. A body has to be JSON of the
right shape and short enough. What is wrong with a request is found in a fixed
order: a stated length over the limit, an unknown path, a wrong method, a wrong
content type, a body over the limit, a text that is no JSON, a JSON text that is
no request.

Owns: routes, limits, and the statuses of malformed requests.
Does not own: what requests do (`Depot.Service`).
-/

namespace Depot.Http

open Text

/-- What a path names. -/
inductive Route where
  | health
  | shipments
  /-- One shipment, by direction and number as they are written. -/
  | shipment (direction number : List Char)
  | deleteShipments
  | deleteLines
  | updateLines
  | requisitions
  | deleteRequisitions
deriving DecidableEq, Repr

namespace Route

/-- The route of a path. Names are written as they are; the last part of a
shipment's path may not be empty. -/
def ofPath? (path : List Char) : Option Route :=
  match pieces '/' path with
  | [[], name] =>
      match String.ofList name with
      | "healthz" => some .health
      | "invoices" => some .shipments
      | "requisitions" => some .requisitions
      | _ => none
  | [[], name, action] =>
      match String.ofList name, String.ofList action with
      | "invoices", "delete" => some .deleteShipments
      | "invoice-lines", "delete" => some .deleteLines
      | "invoice-lines", "update" => some .updateLines
      | "requisitions", "delete" => some .deleteRequisitions
      | _, _ => none
  | [[], name, direction, number] =>
      if String.ofList name = "invoices" && !number.isEmpty then
        some (.shipment direction number)
      else none
  | _ => none

/-- Whether the route is read from. The others are written to. -/
def isRead : Route → Bool
  | .health | .shipments | .shipment _ _ | .requisitions => true
  | .deleteShipments | .deleteLines | .updateLines | .deleteRequisitions => false

def allows (route : Route) (method : String) : Bool :=
  if route.isRead then method = "GET" || method = "HEAD" else method = "POST"

end Route

namespace Router

/-- The greatest length of a body that is ever read. -/
def readLimit : Nat := 2097152

def respond {α : Type} [Wire α] : Service.Answer α → Response
  | .ok value => ⟨200, Wire.write value⟩
  | .error rejection => ⟨statusOf rejection.code, Wire.write rejection⟩

/-- The value that a body says, or the response to a body that says none. -/
def readBody (α : Type) [Wire α] (limit : Nat) (request : Request) : Except Response α :=
  if !(request.contentType.any MediaType.isJson) then .error (.bare 415)
  else if min limit readLimit < request.body.utf8ByteSize then .error (.bare 413)
  else
    match Wire.readBeginning α request.body with
    | .ok value => .ok value
    | .error .malformed => .error (.bare 400)
    | .error .mismatch => .error (.bare 422)

def answerShipments (database : Database) (query : List Char) : Response :=
  match (Parameters.single? "kind" query).bind Direction.ofWord? with
  | none => .bare 400
  | some direction => respond (Service.listShipments database direction)

def answerShipment (database : Database) (direction number : List Char) : Response :=
  match percentDecoded? direction, (percentDecoded? number).bind readInt64? with
  | some raw, some number =>
      match Direction.read? (String.ofList raw) with
      | some direction =>
          respond (Service.shipmentDetail database direction (Int64.ofInt number))
      | none =>
          respond (α := ShipmentDetail)
            (.error ⟨.validation, "unknown invoice kind '" ++ String.ofList raw ++ "'"⟩)
  | _, _ => .bare 400

def answerDeletion (database : Database) (limit : Nat) (request : Request)
    (delete : Database → List Target → Database × Service.Answer Nat) :
    Database × Response :=
  match readBody DeleteRequest limit request with
  | .error response => (database, response)
  | .ok wanted =>
      let (after, answer) := delete database wanted.targets
      (after, respond (answer.map fun count => DeleteAnswer.mk (UInt64.ofNat count)))

def answerUpdate (database : Database) (limit : Nat) (request : Request) :
    Database × Response :=
  match readBody UpdateRequest limit request with
  | .error response => (database, response)
  | .ok wanted =>
      let (after, answer) := Service.updateLines database wanted.lines
      (after, respond (answer.map fun count => UpdateAnswer.mk (UInt64.ofNat count)))

def answerHealth (database : Database) : Response :=
  match database.health with
  | .ok () => ⟨200, "ok"⟩
  | .error _ => .bare 503

def answerRoute (database : Database) (limit : Nat) (request : Request) (query : List Char) :
    Route → Database × Response
  | .health => (database, answerHealth database)
  | .shipments => (database, answerShipments database query)
  | .shipment direction number => (database, answerShipment database direction number)
  | .requisitions => (database, respond (Service.listRequisitions database))
  | .deleteShipments => answerDeletion database limit request Service.deleteShipments
  | .deleteLines => answerDeletion database limit request Service.deleteLines
  | .updateLines => answerUpdate database limit request
  | .deleteRequisitions => answerDeletion database limit request Service.deleteRequisitions

/-- The response as the method wants it: without its body where only the head is
asked for. -/
def headOnly (method : String) (response : Response) : Response :=
  if method = "HEAD" then .bare response.status else response

/-- Whether the character may stand in the scheme of a target. -/
def isSchemeCharacter (character : Char) : Bool :=
  isLetter character || isDigit character || ['+', '-', '.'].contains character

/-- The path and the query of a target: what follows the scheme and the host, if
the target begins with them. -/
def withoutHost (target : List Char) : List Char :=
  match rest? "://".toList (target.dropWhile isSchemeCharacter) with
  | some rest => rest.dropWhile fun character => character ≠ '/' && character ≠ '?'
  | none => target

def answer (limit : Nat) (database : Database) (request : Request) : Database × Response :=
  let target := withoutHost (before '#' request.target.toList)
  let (path, query) := (cutAt? '?' target).getD (target, [])
  if request.contentLength.any (limit < ·) then (database, .bare 413)
  else
    match Route.ofPath? path with
    | none => (database, .bare 404)
    | some route =>
        if route.allows request.method then
          let (after, response) := answerRoute database limit request query route
          (after, headOnly request.method response)
        else (database, .bare 405)

end Router

end Depot.Http
