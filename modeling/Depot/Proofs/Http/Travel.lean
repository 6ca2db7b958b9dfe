import Depot.Http.Client
import Depot.Http.Router
import Depot.Proofs.Text.Split

/-!
Contract: requests of a client arrive at the routes that they are meant for.

The client writes an address after the address of the service, the router takes the path of
what it gets apart. A host ends where the first slash is, the paths begin with one and hold
neither a hash sign nor, but for the list of shipments, a question mark.

Owns: addresses of services, and the route of every inquiry.
Does not own: what is done on a route (`Depot.Proofs.Http.Transparent`).
-/

namespace Depot.Http

open Text

/-- The address of a host, with nothing but slashes after it. -/
structure HostUrl where
  scheme : List Char
  host : List Char
  slashes : Nat
  schemeEnds : ':' ∉ scheme
  hostNamed : host ≠ []
  hostEnds : '/' ∉ host ∧ '?' ∉ host ∧ '#' ∉ host

namespace HostUrl

/-- The address without slashes at its end. -/
def root (url : HostUrl) : List Char :=
  url.scheme ++ ':' :: '/' :: '/' :: url.host

def text (url : HostUrl) : String :=
  String.ofList (url.root ++ List.replicate url.slashes '/')

theorem withoutTrailing_root (url : HostUrl) :
    withoutTrailing '/' (url.root ++ List.replicate url.slashes '/') = url.root := by
  have last : ∀ others : List Char,
      (url.host.reverse ++ others).dropWhile (· == '/') = url.host.reverse ++ others := by
    intro others
    cases written : url.host.reverse with
    | nil => exact absurd (List.reverse_eq_nil_iff.mp written) url.hostNamed
    | cons character rest =>
        have inside : character ∈ url.host :=
          List.mem_reverse.mp (written ▸ List.mem_cons_self)
        have solid : (character == '/') = false :=
          beq_eq_false_iff_ne.mpr (ne_of_mem_of_not_mem inside url.hostEnds.1)
        rw [List.cons_append, List.dropWhile_cons, solid]
        rfl
  have slashes : ∀ character ∈ List.replicate url.slashes '/', (character == '/') = true := by
    intro character inside
    exact beq_iff_eq.mpr (List.eq_of_mem_replicate inside)
  have turned : url.root.reverse =
      url.host.reverse ++ ('/' :: '/' :: ':' :: url.scheme.reverse) := by
    simp [root]
  rw [withoutTrailing, List.reverse_append, List.reverse_replicate,
    List.dropWhile_append_of_pos slashes, turned, last, ← turned, List.reverse_reverse]

theorem base_ofUrl (url : HostUrl) : (Client.ofUrl url.text).base = String.ofList url.root := by
  rw [Client.ofUrl, text, String.toList_ofList, withoutTrailing_root]

/-- A path after the address of a host is the path of the whole. -/
theorem path?_append (url : HostUrl) {path : String} {rest : List Char}
    (rooted : path.toList = '/' :: rest) :
    Client.path? ((Client.ofUrl url.text).base ++ path) = some path := by
  have whole : ((Client.ofUrl url.text).base ++ path).toList =
      url.scheme ++ ':' :: ('/' :: '/' :: (url.host ++ '/' :: rest)) := by
    rw [base_ofUrl, String.toList_append, String.toList_ofList, rooted]
    simp [root]
  unfold Client.path?
  rw [whole, cutAt?_append url.schemeEnds]
  show some (String.ofList ((url.host ++ '/' :: rest).dropWhile fun character =>
    character ≠ '/')) = some path
  rw [dropWhile_ne_append url.hostEnds.1, ← rooted, String.ofList_toList]

end HostUrl

/-! ### Requests -/

/-- The request that an inquiry makes at a host. -/
def Inquiry.request {α : Type} (inquiry : Inquiry α) : Request :=
  ⟨inquiry.method, inquiry.path, inquiry.body.map fun _ => "application/json",
    inquiry.body.map String.utf8ByteSize, inquiry.body.getD ""⟩

/-- The router as the one that requests are sent to. -/
def Router.exchange (limit : Nat) : Exchange Database := fun database request =>
  ((Router.answer limit database request).1, some (Router.answer limit database request).2)

theorem HostUrl.inquire_exchange (url : HostUrl) {α : Type} (inquiry : Inquiry α)
    {rest : List Char} (rooted : inquiry.path.toList = '/' :: rest) (limit : Nat)
    (database : Database) :
    (Client.ofUrl url.text).inquire (Router.exchange limit) database inquiry =
      ((Router.answer limit database inquiry.request).1,
        inquiry.read (Router.answer limit database inquiry.request).2) := by
  have sent : (Client.ofUrl url.text).request? inquiry = some inquiry.request := by
    rw [Client.request?, url.path?_append rooted]
    rfl
  rw [Client.inquire, sent]
  rfl

namespace Router

/-- Where a request arrives: the route of its path, and its query. -/
structure Arrives (request : Request) (route : Route) (query : List Char) : Prop where
  routed : ∃ path, (cutAt? '?' (withoutHost (before '#' request.target.toList))).getD
      (withoutHost (before '#' request.target.toList), []) = (path, query) ∧
    Route.ofPath? path = some route
  allowed : route.allows request.method = true
  notHead : request.method ≠ "HEAD"

theorem Arrives.answer {request : Request} {route : Route} {query : List Char}
    (arrives : Arrives request route query) {limit : Nat}
    (short : request.contentLength.any (limit < ·) = false) (database : Database) :
    answer limit database request = answerRoute database limit request query route := by
  obtain ⟨path, cut, routed⟩ := arrives.routed
  unfold Router.answer
  simp only [cut, short, routed, arrives.allowed, headOnly, if_neg arrives.notHead,
    Bool.false_eq_true, ↓reduceIte]

/-- What begins with a slash names no host. -/
theorem withoutHost_rooted (rest : List Char) : withoutHost ('/' :: rest) = '/' :: rest := rfl

theorem arrives_shipments (direction : Direction) :
    Arrives (Inquiry.shipments direction).request .shipments
      ("kind=" ++ direction.word).toList where
  routed := by
    cases direction <;> exact ⟨"/invoices".toList, by decide, by decide⟩
  allowed := rfl
  notHead := show "GET" ≠ "HEAD" by decide

theorem arrives_requisitions : Arrives Inquiry.requisitions.request .requisitions [] where
  routed := ⟨"/requisitions".toList, by decide, by decide⟩
  allowed := by decide
  notHead := by decide

theorem isEmpty_intText (value : Int) : (intText value).isEmpty = false := by
  cases value with
  | ofNat value => exact List.isEmpty_eq_false_iff.mpr (natText_ne_nil value)
  | negSucc value => rfl

/-- The names in the path of a shipment, and its number. -/
def shipmentPath (direction : Direction) (number : Int64) : List Char :=
  '/' :: ("invoices".toList ++ '/' :: (direction.word.toList ++ '/' :: intText number.toInt))

theorem toList_shipmentPath (direction : Direction) (number : Int64) :
    (Inquiry.shipment direction number).path.toList = shipmentPath direction number := by
  have digits : (String.ofList (intText number.toInt)).toList = intText number.toInt :=
    String.toList_ofList
  show ("/invoices/" ++ direction.word ++ "/" ++ String.ofList (intText number.toInt)).toList = _
  rw [String.toList_append, String.toList_append, String.toList_append, digits,
    List.append_assoc, List.append_assoc]
  rfl

theorem notMem_shipmentPath (direction : Direction) (number : Int64) {sign : Char}
    (known : sign = '#' ∨ sign = '?') : sign ∉ shipmentPath direction number := by
  have noDigit : isDigit sign = false := by rcases known with rfl | rfl <;> decide
  have noMinus : sign ≠ '-' := by rcases known with rfl | rfl <;> decide
  have names : sign ∉ '/' :: ("invoices".toList ++ '/' :: (direction.word.toList ++ ['/'])) := by
    rcases known with rfl | rfl <;> cases direction <;> decide
  have parts : shipmentPath direction number =
      ('/' :: ("invoices".toList ++ '/' :: (direction.word.toList ++ ['/']))) ++
        intText number.toInt := by
    simp [shipmentPath]
  rw [parts, List.mem_append]
  rintro (inNames | inNumber)
  · exact names inNames
  · exact notMem_intText number.toInt noDigit noMinus inNumber

theorem pieces_shipmentPath (direction : Direction) (number : Int64) :
    pieces '/' (shipmentPath direction number) =
      [[], "invoices".toList, direction.word.toList, intText number.toInt] := by
  have noSlash : '/' ∉ direction.word.toList := by cases direction <;> decide
  rw [shipmentPath, pieces, if_pos rfl, pieces_append (by decide), pieces_append noSlash,
    pieces_of_notMem (notMem_intText _ (by decide) (by decide))]

theorem arrives_shipment (direction : Direction) (number : Int64) :
    Arrives (Inquiry.shipment direction number).request
      (.shipment direction.word.toList (intText number.toInt)) [] where
  routed := by
    refine ⟨shipmentPath direction number, ?_, ?_⟩
    · have whole : withoutHost (before '#' (Inquiry.shipment direction number).path.toList) =
          shipmentPath direction number := by
        rw [toList_shipmentPath,
          before_of_notMem (notMem_shipmentPath direction number (.inl rfl))]
        exact withoutHost_rooted _
      show (cutAt? '?' (withoutHost (before '#'
          (Inquiry.shipment direction number).path.toList))).getD
        (withoutHost (before '#' (Inquiry.shipment direction number).path.toList), []) = _
      rw [whole, cutAt?_of_notMem (notMem_shipmentPath direction number (.inr rfl))]
      rfl
    · rw [Route.ofPath?, pieces_shipmentPath]
      show (if String.ofList "invoices".toList = "invoices" && !(intText number.toInt).isEmpty
        then _ else _) = _
      rw [isEmpty_intText]
      rfl
  allowed := rfl
  notHead := show "GET" ≠ "HEAD" by decide

/-- The paths that are written to. -/
def writtenRoutes : List (String × Route) :=
  [("/invoices/delete", .deleteShipments), ("/invoice-lines/delete", .deleteLines),
    ("/invoice-lines/update", .updateLines), ("/requisitions/delete", .deleteRequisitions)]

theorem arrives_post {α β : Type} [Wire α] [Wire β] (value : β) {path : String} {route : Route}
    (known : (path, route) ∈ writtenRoutes) :
    Arrives (Inquiry.post α path value).request route [] where
  routed := by
    have routes : ∀ entry ∈ writtenRoutes,
        (cutAt? '?' (withoutHost (before '#' entry.1.toList))).getD
          (withoutHost (before '#' entry.1.toList), []) = (entry.1.toList, []) ∧
        Route.ofPath? entry.1.toList = some entry.2 := by
      decide
    obtain ⟨cut, routed⟩ := routes (path, route) known
    exact ⟨path.toList, cut, routed⟩
  allowed := by
    have writes : ∀ entry ∈ writtenRoutes, entry.2.allows "POST" = true := by decide
    exact writes (path, route) known
  notHead := show "POST" ≠ "HEAD" by decide

end Router

end Depot.Http
