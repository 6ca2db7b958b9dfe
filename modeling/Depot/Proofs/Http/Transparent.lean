import Depot.Proofs.Database.Doubles
import Depot.Proofs.Database.Orderly
import Depot.Proofs.Database.Survival
import Depot.Proofs.Http.Travel
import Depot.Proofs.Service.Requests
import Depot.Proofs.Wire.RoundTrip
import Mathlib.Data.List.Perm.Subperm

/-!
Contract: what a client reports is what the service answers.

A question that a client asks over requests leaves the database that the service leaves, and
is answered with what the service answers, word for word. Between the two stand the text of
the request and the text of the response. Whole texts are faithful; their doubles are just as
far as each of them is read back from its own text. A double that is not comes as another one,
whether it is a pack count that is stored or the total of a bill that is shown.

Owns: the agreement of clients with the service, what it rests on, and a double that is not
carried.
Does not own: which doubles are read back.
-/

namespace Depot.Http

open Database Decimal Text Wire

/-! ### Responses -/

/-- What a client reports of an answer. -/
def told {α : Type} : Service.Answer α → Except SourceFault α
  | .ok value => .ok value
  | .error rejection => .error (.rejected rejection)

theorem told_map {α β : Type} (answer : Service.Answer α) (change : α → β) :
    (told answer).map change = told (answer.map change) := by
  cases answer <;> rfl

/-- A client sees of an accepted answer what its text is read as. -/
theorem read_respond_ok {α : Type} [Wire α] (value : α) :
    (Router.respond (.ok value)).read α =
      (Wire.read α (write value)).mapError fun _ => .transport := by
  rw [Router.respond, Response.read, if_pos (by rfl)]
  cases Wire.read α (write value) <;> rfl

theorem read_respond {α : Type} [Wire α] [Faithful α] (shallow : Faithful.depth α ≤ wholeRoom)
    {answer : Service.Answer α}
    (back : ∀ value, answer = .ok value → ∀ number ∈ Faithful.doubles value, ReadsBack number) :
    (Router.respond answer).read α = told answer := by
  cases answer with
  | ok value =>
      rw [read_respond_ok, Faithful.read_write value shallow (back value rfl)]
      rfl
  | error rejection =>
      have read : Wire.read Rejection (write rejection) = .ok rejection := by
        refine Faithful.read_write rejection (by decide) ?_
        rintro number ⟨⟩
      have failed : ¬(200 ≤ statusOf rejection.code && statusOf rejection.code < 300) = true := by
        cases rejection.code <;> decide
      rw [Router.respond, Response.read, Response.isSuccess, if_neg failed, read]
      rfl

/-! ### Requests -/

/-- Whether a request with this value is within what the router reads. -/
def Fits {β : Type} [Wire β] (limit : Nat) (value : β) : Prop :=
  (write value).utf8ByteSize ≤ min limit Router.readLimit

section Requests

variable {α β : Type} [Wire α] [Wire β]

theorem contentLength_post {limit : Nat} {value : β} (fits : Fits limit value) (path : String) :
    (Inquiry.post α path value).request.contentLength.any (limit < ·) = false := by
  have short : (write value).utf8ByteSize ≤ limit := Nat.le_trans fits (Nat.min_le_left _ _)
  show decide (limit < (write value).utf8ByteSize) = false
  exact decide_eq_false (Nat.not_lt.mpr short)

theorem readBody_post [Faithful β] (shallow : Faithful.depth β ≤ wholeRoom) {limit : Nat}
    {value : β} (fits : Fits limit value)
    (back : ∀ number ∈ Faithful.doubles value, ReadsBack number) (path : String) :
    Router.readBody β limit (Inquiry.post α path value).request = .ok value := by
  have json : ((Inquiry.post α path value).request.contentType.any MediaType.isJson) = true := by
    have type : (Inquiry.post α path value).request.contentType = some "application/json" := rfl
    rw [type, Option.any_some]
    decide
  have short : ¬min limit Router.readLimit <
      (Inquiry.post α path value).request.body.utf8ByteSize := Nat.not_lt.mpr fits
  have read : readBeginning β (Inquiry.post α path value).request.body = .ok value :=
    Faithful.readBeginning_write value shallow back
  rw [Router.readBody, json, if_neg short, read]
  rfl

end Requests

/-! ### Inquiries -/

theorem inquire_map {σ α β : Type} (client : Client) (exchange : Exchange σ) (state : σ)
    (inquiry : Inquiry α) (change : α → β) :
    client.inquire exchange state (inquiry.map change) =
      ((client.inquire exchange state inquiry).1,
        (client.inquire exchange state inquiry).2.map change) := by
  have sent : client.request? (inquiry.map change) = client.request? inquiry := rfl
  unfold Client.inquire
  rw [sent]
  cases client.request? inquiry with
  | none => rfl
  | some request =>
      dsimp only
      rcases exchange state request with ⟨after, _ | response⟩ <;> rfl

section Questions

variable {σ ρ : Type} [Served ρ] (client : Client) (exchange : Exchange σ) (state : σ)

theorem reply_fetch {key : ListKey} {inquiry : Inquiry (List ρ)}
    (served : Served.fetch key = .ok inquiry) :
    client.reply exchange state (.fetch key : Ask ρ) =
      client.inquire exchange state inquiry := by
  rw [Client.reply, served]
  rfl

theorem reply_unsupported {key : ListKey} {fault : SourceFault}
    (unserved : (Served.fetch key : Except SourceFault (Inquiry (List ρ))) = .error fault) :
    client.reply exchange state (.fetch key : Ask ρ) = (state, .error fault) := by
  rw [Client.reply, unserved]
  rfl

theorem reply_update {rows : List ρ} {inquiry : Inquiry Nat}
    (served : Served.update rows = .ok inquiry) :
    client.reply exchange state (.update rows : Ask ρ) =
      client.inquire exchange state inquiry := by
  rw [Client.reply, served]
  rfl

end Questions

section Inquiries

variable {α : Type} [Wire α] {limit : Nat} {database : Database}

/-- A question that arrives, and is answered on its route, is reported as the response to it
is read. -/
theorem HostUrl.inquire_responded (url : HostUrl) {inquiry : Inquiry α}
    {rest : List Char} (rooted : inquiry.path.toList = '/' :: rest)
    (reads : inquiry.read = Response.read α) {route : Route} {query : List Char}
    (arrives : Router.Arrives inquiry.request route query)
    (short : inquiry.request.contentLength.any (limit < ·) = false)
    {after : Database} {answer : Service.Answer α}
    (answered : Router.answerRoute database limit inquiry.request query route =
      (after, Router.respond answer)) :
    (Client.ofUrl url.text).inquire (Router.exchange limit) database inquiry =
      (after, (Router.respond answer).read α) := by
  rw [url.inquire_exchange inquiry rooted, arrives.answer short, answered, reads]

/-- Where its doubles are read back, the answer is reported as it is. -/
theorem HostUrl.inquire_answered [Faithful α] (url : HostUrl) {inquiry : Inquiry α}
    {rest : List Char} (rooted : inquiry.path.toList = '/' :: rest)
    (reads : inquiry.read = Response.read α) {route : Route} {query : List Char}
    (arrives : Router.Arrives inquiry.request route query)
    (short : inquiry.request.contentLength.any (limit < ·) = false)
    (shallow : Faithful.depth α ≤ wholeRoom) {after : Database} {answer : Service.Answer α}
    (answered : Router.answerRoute database limit inquiry.request query route =
      (after, Router.respond answer))
    (back : ∀ value, answer = .ok value → ∀ number ∈ Faithful.doubles value, ReadsBack number) :
    (Client.ofUrl url.text).inquire (Router.exchange limit) database inquiry =
      (after, told answer) := by
  rw [url.inquire_responded rooted reads arrives short answered, read_respond shallow back]

end Inquiries

/-! ### Rows -/

theorem answerShipments_word (database : Database) (direction : Direction) :
    Router.answerShipments database ("kind=" ++ direction.word).toList =
      Router.respond (Service.listShipments database direction) := by
  have named : (Parameters.single? "kind" ("kind=" ++ direction.word).toList).bind
      Direction.ofWord? = some direction := by
    cases direction <;> decide
  rw [Router.answerShipments, named]

theorem answerShipment_text (database : Database) (direction : Direction) (number : Int64) :
    Router.answerShipment database direction.word.toList (intText number.toInt) =
      Router.respond (Service.shipmentDetail database direction number) := by
  have noPercent : '%' ∉ direction.word.toList := by cases direction <;> decide
  have digits : percentDecoded? (intText number.toInt) = some (intText number.toInt) :=
    percentDecoded?_of_notMem (notMem_intText _ (by decide) (by decide))
  have named : Direction.read? (String.ofList direction.word.toList) = some direction := by
    cases direction <;> decide
  rw [Router.answerShipment, percentDecoded?_of_notMem noPercent, digits, Option.bind_some,
    readInt64?_toInt]
  simp only [named, Int64.ofInt_toInt]

/-! ### Counts -/

theorem length_le_utf8ByteSize (text : List Char) :
    text.length ≤ (String.ofList text).utf8ByteSize := by
  induction text with
  | nil => exact Nat.zero_le _
  | cons character text inductionHypothesis =>
      have positive := character.utf8Size_pos
      rw [String.ofList_cons, String.utf8ByteSize_append, String.utf8ByteSize_singleton,
        List.length_cons]
      omega

theorem length_le_printItems (items : List Json) :
    items.length ≤ (Json.printItems items).length := by
  induction items with
  | nil => exact Nat.zero_le _
  | cons item items inductionHypothesis =>
      have some := (Json.begins_print item).length_pos
      cases items with
      | nil => exact some
      | cons next items =>
          rw [Json.printItems, List.length_append]
          · simp only [List.length_cons] at inductionHypothesis ⊢
            omega
          · exact nofun

/-- A list is no longer than the text of a document that holds it. -/
theorem length_le_document {β : Type} [Wire β] (name : String) (values : List β) :
    values.length ≤ (Json.ofMembers [(name, encode values)]).text.utf8ByteSize := by
  have items := length_le_printItems (values.map encode)
  have bytes := length_le_utf8ByteSize (Json.ofMembers [(name, encode values)]).print
  have print : (Json.ofMembers [(name, encode values)]).print =
      '{' :: (Json.quoted name ++ ':' :: '[' :: Json.printItems (values.map encode) ++ [']'])
        ++ ['}'] := by
    show Json.print (.object [(some name, .array (values.map encode) .closed)] .closed) = _
    simp [Json.print, Json.printMembers]
  rw [print] at bytes
  simp only [List.length_append, List.length_cons, List.length_map] at bytes items
  rw [Json.text, print]
  omega

theorem length_distinctIds_le (targets : List Target) :
    (Service.distinctIds targets).length ≤ targets.length := by
  have inside : Service.distinctIds targets ⊆ targets.map Target.id := by
    intro id member
    exact List.mem_eraseDups.mp member
  have subperm := List.Nodup.subperm (Service.nodup_eraseDups (targets.map Target.id)) inside
  exact List.length_map Target.id ▸ subperm.length_le

theorem updateLines_granted_iff {database : Database} (sound : database.Sound)
    (updates : List PackUpdate) (count : Nat) :
    (Service.updateLines database updates).2 = .ok count ↔
      Service.checkPackUpdates database updates = .ok () ∧ updates.length = count := by
  refine Service.granted_iff fun passed => ?_
  obtain ⟨some, checked⟩ := (Service.checkPackUpdates_eq_ok database updates).mp passed
  exact congrArg Prod.snd (Service.updateLines_eq_ok sound some checked)

theorem told_counted {α : Type} {wrap : UInt64 → α} {unwrap : α → UInt64}
    (undone : ∀ number, unwrap (wrap number) = number) {answer : Service.Answer Nat}
    {bound : Nat} (counts : ∀ count, answer = .ok count → count ≤ bound)
    (small : bound < 2 ^ 64) :
    told ((answer.map fun count => wrap (UInt64.ofNat count)).map fun value =>
      (unwrap value).toNat) = told answer := by
  cases answer with
  | error rejection => rfl
  | ok count =>
      have fits : count < 2 ^ 64 := Nat.lt_of_le_of_lt (counts count rfl) small
      have kept : (unwrap (wrap (UInt64.ofNat count))).toNat = count := by
        rw [undone, UInt64.toNat_ofNat_of_lt' fits]
      exact congrArg Except.ok kept

/-! ### Documents without doubles -/

theorem doubles_list {α : Type} [Wire α] [Faithful α]
    (plain : ∀ value : α, Faithful.doubles value = []) (values : List α) :
    Faithful.doubles values = [] :=
  List.flatMap_eq_nil_iff.mpr fun value _ => plain value

theorem doubles_target (target : Target) : Faithful.doubles target = [] := by
  obtain ⟨id, parentId⟩ := target
  cases parentId <;> rfl

theorem doubles_deleteRequest (targets : List Target) :
    Faithful.doubles (DeleteRequest.mk targets) = [] := by
  show Faithful.doubles targets ++ [] = []
  rw [doubles_list doubles_target]
  rfl

/-! ### Documents with doubles -/

theorem mem_doubles_updateRequest (number : Binary64) (updates : List PackUpdate) :
    number ∈ Faithful.doubles (UpdateRequest.mk updates) ↔
      ∃ update ∈ updates, number = update.packs := by
  show number ∈ (updates.flatMap fun update => [update.packs]) ++ [] ↔ _
  simp

theorem recordDoubles_eq (content : LineContent) : content.recordDoubles = content.doubles := by
  -- Options hold texts and dates, in which there is no double either way.
  cases content with
  | stockIn stock price | stockOut stockLineId stock price =>
      obtain ⟨batch, expiry, packSize, packs⟩ := stock
      cases batch <;> cases expiry <;> rfl
  | service total note => cases note <;> rfl

/-- The lines that are read of a detail are those that are read of its lines. -/
theorem decode_lines_of_detail (room : Nat) {detail found : ShipmentDetail}
    (decoded : decode (room + 1) (encode detail) = .ok found) :
    decode room (encode detail.lines) = .ok found.lines := by
  replace decoded : ShipmentDetail.record.toWire.decode (room + 1)
      (ShipmentDetail.record.toWire.encode detail) = .ok found := decoded
  rw [Record.encode_toWire] at decoded
  have listed : ShipmentDetail.Field.lines ∈ [ShipmentDetail.Field.shipment, .lines] := by decide
  exact (Record.ofObject_membersOf.mp decoded .lines listed).1 rfl

theorem doubles_detail (detail : ShipmentDetail) :
    Faithful.doubles detail = Faithful.doubles detail.lines := by
  show Faithful.doubles detail.lines ++ [] = _
  rw [List.append_nil]

theorem mem_doubles_detail {number : Binary64} {detail : ShipmentDetail}
    (inside : number ∈ Faithful.doubles detail) :
    ∃ line ∈ detail.lines, number ∈ line.content.doubles := by
  rw [doubles_detail] at inside
  obtain ⟨line, member, inLine⟩ := List.mem_flatMap.mp inside
  replace inLine : number ∈ line.content.recordDoubles ++ [] := inLine
  rw [List.append_nil, recordDoubles_eq] at inLine
  exact ⟨line, member, inLine⟩

/-! ### Writing -/

/-- What a client reports of a request, and the database after it. -/
def toldOf {α : Type} (asked : Database × Service.Answer α) : Database × Except SourceFault α :=
  (asked.1, told asked.2)

theorem rooted_written {path : String} {route : Route}
    (known : (path, route) ∈ Router.writtenRoutes) : ∃ rest, path.toList = '/' :: rest := by
  have rooted : ∀ entry ∈ Router.writtenRoutes, entry.1.toList.head? = some '/' := by decide
  exact List.head?_eq_some_iff.mp (rooted (path, route) known)

namespace HostUrl

variable {limit : Nat} {database : Database}

/-- A value that is sent where it is read, and what the service makes of it. -/
theorem inquire_post {α β : Type} [Wire α] [Faithful α] [Wire β] [Faithful β] (url : HostUrl)
    {path : String} {route : Route} (known : (path, route) ∈ Router.writtenRoutes) {value : β}
    (fits : Fits limit value) (shallow : Faithful.depth β ≤ wholeRoom)
    (back : ∀ number ∈ Faithful.doubles value, ReadsBack number)
    (shallowAnswer : Faithful.depth α ≤ wholeRoom)
    (plain : ∀ value : α, Faithful.doubles value = []) {asked : Database × Service.Answer α}
    (answered : ∀ request, Router.readBody β limit request = .ok value →
      Router.answerRoute database limit request [] route =
        (asked.1, Router.respond asked.2)) :
    (Client.ofUrl url.text).inquire (Router.exchange limit) database
      (Inquiry.post α path value) = toldOf asked := by
  obtain ⟨rest, rooted⟩ := rooted_written known
  refine url.inquire_answered rooted rfl (Router.arrives_post value known)
    (contentLength_post fits path) shallowAnswer
    (answered _ (readBody_post shallow fits back path)) ?_
  intro value _ number inside
  rw [plain value] at inside
  cases inside

/-- A value that is sent to be counted. No more is counted than the request has room for. -/
theorem inquire_counted {α β : Type} [Wire α] [Faithful α] [Wire β] [Faithful β] (url : HostUrl)
    {path : String} {route : Route} (known : (path, route) ∈ Router.writtenRoutes) {value : β}
    (fits : Fits limit value) (shallow : Faithful.depth β ≤ wholeRoom)
    (back : ∀ number ∈ Faithful.doubles value, ReadsBack number)
    (shallowAnswer : Faithful.depth α ≤ wholeRoom)
    (plain : ∀ value : α, Faithful.doubles value = []) {wrap : UInt64 → α} {unwrap : α → UInt64}
    (undone : ∀ number, unwrap (wrap number) = number)
    {asked : Database × Service.Answer Nat}
    (counts : ∀ count, asked.2 = .ok count → count ≤ (write value).utf8ByteSize)
    (answered : ∀ request, Router.readBody β limit request = .ok value →
      Router.answerRoute database limit request [] route =
        (asked.1, Router.respond (asked.2.map fun count => wrap (UInt64.ofNat count)))) :
    (Client.ofUrl url.text).inquire (Router.exchange limit) database
      ((Inquiry.post α path value).map fun answer => (unwrap answer).toNat) = toldOf asked := by
  have small : (write value).utf8ByteSize < 2 ^ 64 := by
    have limited : (write value).utf8ByteSize ≤ Router.readLimit :=
      Nat.le_trans fits (Nat.min_le_right _ _)
    exact Nat.lt_of_le_of_lt limited (by decide)
  have sent : (Client.ofUrl url.text).inquire (Router.exchange limit) database
      (Inquiry.post α path value) =
      toldOf (asked.1, asked.2.map fun count => wrap (UInt64.ofNat count)) :=
    url.inquire_post known fits shallow back shallowAnswer plain answered
  rw [inquire_map, sent]
  refine Prod.ext rfl ?_
  exact (told_map _ _).trans (told_counted undone counts small)

theorem reply_remove {ρ : Type} [Served ρ] (url : HostUrl) {route : Route}
    (known : (Served.deletePath ρ, route) ∈ Router.writtenRoutes)
    {delete : Database → List Target → Database × Service.Answer Nat}
    (routed : ∀ request, Router.answerRoute database limit request [] route =
      Router.answerDeletion database limit request delete)
    {targets : List Target} (fits : Fits limit (DeleteRequest.mk targets))
    (counts : ∀ count, (delete database targets).2 = .ok count →
      (Service.distinctIds targets).length = count) :
    (Client.ofUrl url.text).reply (Router.exchange limit) database
      (.remove targets : Ask ρ) = toldOf (delete database targets) := by
  rw [Client.reply, Inquiry.delete]
  refine url.inquire_counted known fits (by decide) ?_ (by decide) (fun _ => rfl)
    (fun _ => rfl) ?_ ?_
  · rw [doubles_deleteRequest]
    rintro number ⟨⟩
  · intro count counted
    rw [← counts count counted]
    exact (length_distinctIds_le targets).trans (length_le_document "targets" targets)
  · intro request read
    rw [routed, Router.answerDeletion, read]

theorem inquire_updateLines (url : HostUrl) {lines : List Line}
    (fits : Fits limit (UpdateRequest.mk (lines.filterMap Inquiry.packUpdate?)))
    (back : ∀ update ∈ lines.filterMap Inquiry.packUpdate?, ReadsBack update.packs)
    (counts : ∀ count,
      (Service.updateLines database (lines.filterMap Inquiry.packUpdate?)).2 = .ok count →
        (lines.filterMap Inquiry.packUpdate?).length = count) :
    (Client.ofUrl url.text).inquire (Router.exchange limit) database (.updateLines lines) =
      toldOf (Service.updateLines database (lines.filterMap Inquiry.packUpdate?)) := by
  rw [Inquiry.updateLines]
  generalize lines.filterMap Inquiry.packUpdate? = updates at fits back counts
  have known : ("/invoice-lines/update", Route.updateLines) ∈ Router.writtenRoutes := by decide
  refine url.inquire_counted known fits (by decide) ?_ (by decide) (fun _ => rfl)
    (fun _ => rfl) ?_ ?_
  · intro number inside
    obtain ⟨update, member, rfl⟩ := (mem_doubles_updateRequest number updates).mp inside
    exact back update member
  · intro count counted
    rw [← counts count counted]
    exact length_le_document "lines" updates
  · intro request read
    show Router.answerUpdate database limit request = _
    rw [Router.answerUpdate, read]

end HostUrl

/-! ### Finite doubles -/

theorem isFinite_kept {number : Binary64} (finite : number.isFinite = true) :
    number.kept.isFinite = true := by
  unfold Binary64.kept
  split
  next => rfl
  next => exact finite

theorem allFinite_kept {content : LineContent}
    (finite : ∀ number ∈ content.doubles, number.isFinite = true) :
    ∀ number ∈ content.kept.doubles, number.isFinite = true := by
  have kept : content.kept.doubles = content.doubles.map Binary64.kept := by
    cases content <;> rfl
  rw [kept, List.forall_mem_map]
  exact fun number inside => isFinite_kept (finite number inside)

/-- The lines that are answered after finite doubles were written have finite doubles. -/
theorem isFinite_of_shipmentDetail {writes : List Write}
    (finite : ∀ write ∈ writes, write.PutsGood fun number => number.isFinite = true)
    {direction : Direction} {number : Int64} {detail : ShipmentDetail}
    (answered : Service.shipmentDetail (empty.writeAll writes) direction number = .ok detail) :
    ∀ number ∈ Faithful.doubles detail, number.isFinite = true := by
  have good : AllGood (fun number => number.isFinite = true)
      (lineAccount.left (empty.history writes)) := by
    refine allGood_history ?_
    rintro before write after rfl -
    exact finite write (by simp)
  have numeric : ∀ line ∈ lineAccount.left (empty.history writes), line.content.IsNumeric :=
    fun line member => line.content.isNumeric_iff.mpr fun number inside =>
      Binary64.isNaN_of_isFinite (good line member number inside)
  obtain ⟨shipment, -, rest⟩ := bind_eq_ok.mp answered
  obtain ⟨lines, read, made⟩ := bind_eq_ok.mp rest
  obtain rfl := Except.ok.inj made
  rw [linesOf_writeAll numeric] at read
  obtain rfl := Except.ok.inj read
  intro number inside
  obtain ⟨line, member, inLine⟩ := mem_doubles_detail inside
  obtain ⟨old, listed, rfl⟩ := List.mem_map.mp member
  exact allFinite_kept (good old (List.mem_filter.mp listed).1) number inLine

/-! ### Clients and the service -/

/-- What a client reports, and the database that it leaves, are those of the service itself,
for doubles that are carried. A list that is of another kind is not asked for. -/
structure Transparent (Carried : Binary64 → Prop) (limit : Nat) (client : Client)
    (database : Database) : Prop where
  fetchLines : ∀ (direction : Direction) (number : Int64),
    (∀ detail, Service.shipmentDetail database direction number = .ok detail →
      ∀ number ∈ Faithful.doubles detail, Carried number) →
    client.reply (Router.exchange limit) database
        (.fetch (.shipment direction number) : Ask Line) =
      (database, told ((Service.shipmentDetail database direction number).map
        ShipmentDetail.lines))
  fetchShipments : ∀ direction : Direction,
    client.reply (Router.exchange limit) database
        (.fetch (.shipments direction) : Ask Shipment) =
      (database, told (Service.listShipments database direction))
  fetchRequisitions :
    client.reply (Router.exchange limit) database (.fetch .requisitions : Ask Requisition) =
      (database, told (Service.listRequisitions database))
  removeLines : ∀ targets : List Target, Fits limit (DeleteRequest.mk targets) →
    client.reply (Router.exchange limit) database (.remove targets : Ask Line) =
      toldOf (Service.deleteLines database targets)
  removeShipments : ∀ targets : List Target, Fits limit (DeleteRequest.mk targets) →
    client.reply (Router.exchange limit) database (.remove targets : Ask Shipment) =
      toldOf (Service.deleteShipments database targets)
  removeRequisitions : ∀ targets : List Target, Fits limit (DeleteRequest.mk targets) →
    client.reply (Router.exchange limit) database (.remove targets : Ask Requisition) =
      toldOf (Service.deleteRequisitions database targets)
  updateLines : ∀ lines : List Line, (∃ line ∈ lines, line.isService = false) →
    (∀ update ∈ lines.filterMap Inquiry.packUpdate?,
      update.packs.isFinite = true ∧ Carried update.packs) →
    Fits limit (UpdateRequest.mk (lines.filterMap Inquiry.packUpdate?)) →
    client.reply (Router.exchange limit) database (.update lines : Ask Line) =
      toldOf (Service.updateLines database (lines.filterMap Inquiry.packUpdate?))
  otherLines : ∀ {σ : Type} (exchange : Exchange σ) (state : σ) (key : ListKey),
    (∀ direction number, key ≠ .shipment direction number) →
    client.reply exchange state (.fetch key : Ask Line) = (state, .error (.unsupported key))
  otherShipments : ∀ {σ : Type} (exchange : Exchange σ) (state : σ) (key : ListKey),
    (∀ direction, key ≠ .shipments direction) →
    client.reply exchange state (.fetch key : Ask Shipment) = (state, .error (.unsupported key))
  otherRequisitions : ∀ {σ : Type} (exchange : Exchange σ) (state : σ) (key : ListKey),
    key ≠ .requisitions →
    client.reply exchange state (.fetch key : Ask Requisition) =
      (state, .error (.unsupported key))

namespace HostUrl

variable {limit : Nat} {database : Database}

theorem inquire_shipments (url : HostUrl) (direction : Direction) :
    (Client.ofUrl url.text).inquire (Router.exchange limit) database
      (Inquiry.shipments direction) =
      (database, told (Service.listShipments database direction)) := by
  obtain ⟨rest, rooted⟩ : ∃ rest, (Inquiry.shipments direction).path.toList = '/' :: rest := by
    cases direction <;> exact ⟨_, rfl⟩
  refine url.inquire_answered rooted rfl (Router.arrives_shipments direction) rfl (by decide) ?_ ?_
  · exact congrArg (Prod.mk database) (answerShipments_word database direction)
  · intro shipments _ number inside
    rw [doubles_list (fun _ => rfl)] at inside
    cases inside

theorem inquire_requisitions (url : HostUrl) :
    (Client.ofUrl url.text).inquire (Router.exchange limit) database Inquiry.requisitions =
      (database, told (Service.listRequisitions database)) := by
  have rooted : Inquiry.requisitions.path.toList = '/' :: "requisitions".toList := rfl
  refine url.inquire_answered rooted rfl Router.arrives_requisitions rfl (by decide) rfl ?_
  intro requisitions _ number inside
  rw [doubles_list (fun _ => rfl)] at inside
  cases inside

theorem inquire_lines (url : HostUrl) (direction : Direction) (number : Int64)
    (back : ∀ detail, Service.shipmentDetail database direction number = .ok detail →
      ∀ number ∈ Faithful.doubles detail, ReadsBack number) :
    (Client.ofUrl url.text).inquire (Router.exchange limit) database
      ((Inquiry.shipment direction number).map ShipmentDetail.lines) =
      (database, told ((Service.shipmentDetail database direction number).map
        ShipmentDetail.lines)) := by
  have whole : (Client.ofUrl url.text).inquire (Router.exchange limit) database
      (Inquiry.shipment direction number) =
      (database, told (Service.shipmentDetail database direction number)) := by
    refine url.inquire_answered (Router.toList_shipmentPath direction number) rfl
      (Router.arrives_shipment direction number) rfl (by decide) ?_ back
    exact congrArg (Prod.mk database) (answerShipment_text database direction number)
  rw [inquire_map, whole, told_map]

/-- The lines of a shipment are reported as they are exactly if their doubles are read back. -/
theorem inquire_lines_iff (url : HostUrl) {direction : Direction} {number : Int64}
    {detail : ShipmentDetail}
    (answered : Service.shipmentDetail database direction number = .ok detail) :
    (Client.ofUrl url.text).inquire (Router.exchange limit) database
      ((Inquiry.shipment direction number).map ShipmentDetail.lines) =
        (database, .ok detail.lines) ↔
      ∀ number ∈ Faithful.doubles detail, ReadsBack number := by
  constructor
  · intro told double inside
    have responded : (Client.ofUrl url.text).inquire (Router.exchange limit) database
        (Inquiry.shipment direction number) =
        (database, (Router.respond (.ok detail)).read ShipmentDetail) := by
      refine url.inquire_responded (Router.toList_shipmentPath direction number) rfl
        (Router.arrives_shipment direction number) rfl ?_
      rw [← answered]
      exact congrArg (Prod.mk database) (answerShipment_text database direction number)
    rw [inquire_map, responded, read_respond_ok, Faithful.read_write_eq] at told
    replace told := (Prod.mk.inj told).2
    -- What was read may differ from the detail, but its lines do not.
    cases decoded : (decode wholeRoom (encode detail) : Except Wire.Fault ShipmentDetail) with
    | error fault =>
        rw [decoded] at told
        cases told
    | ok found =>
        rw [decoded] at told
        have same : found.lines = detail.lines := Except.ok.inj told
        have lines := decode_lines_of_detail 126 decoded
        rw [same, Faithful.reads_iff 126 detail.lines (by decide)] at lines
        exact lines double (doubles_detail detail ▸ inside)
  · intro back
    rw [url.inquire_lines, answered]
    · rfl
    · rintro other same
      rw [answered] at same
      obtain rfl := Except.ok.inj same
      exact back

end HostUrl

/-- Whether the double, if it is finite, is what its text is read as. -/
def IsCarried (number : Binary64) : Prop :=
  number.isFinite = true → ReadsBack number

/-- A client is transparent for a sound database whose lines have finite doubles. -/
theorem HostUrl.transparent (url : HostUrl) (limit : Nat) {database : Database}
    (sound : database.Sound)
    (finite : ∀ direction number detail,
      Service.shipmentDetail database direction number = .ok detail →
        ∀ number ∈ Faithful.doubles detail, number.isFinite = true) :
    Transparent IsCarried limit (Client.ofUrl url.text) database := by
  constructor
  case fetchLines =>
    intro direction number carried
    rw [reply_fetch _ _ _ rfl]
    refine url.inquire_lines direction number ?_
    intro detail answered double inside
    have isFinite := finite direction number detail answered double inside
    exact carried detail answered double inside isFinite
  case fetchShipments =>
    intro direction
    rw [reply_fetch _ _ _ rfl]
    exact url.inquire_shipments direction
  case fetchRequisitions =>
    rw [reply_fetch _ _ _ rfl]
    exact url.inquire_requisitions
  case removeLines =>
    intro targets fits
    have known : (Served.deletePath Line, Route.deleteLines) ∈ Router.writtenRoutes := by decide
    apply url.reply_remove known (fun _ => rfl) fits
    intro count counted
    exact ((Service.deleteLines_granted_iff sound targets count).mp counted).2
  case removeShipments =>
    intro targets fits
    have known : (Served.deletePath Shipment, Route.deleteShipments) ∈ Router.writtenRoutes := by
      decide
    apply url.reply_remove known (fun _ => rfl) fits
    intro count counted
    exact ((Service.deleteShipments_granted_iff sound targets count).mp counted).2
  case removeRequisitions =>
    intro targets fits
    have known : (Served.deletePath Requisition, Route.deleteRequisitions) ∈ Router.writtenRoutes := by
      decide
    apply url.reply_remove known (fun _ => rfl) fits
    intro count counted
    exact ((Service.deleteRequisitions_granted_iff sound targets count).mp counted).2
  case updateLines =>
    intro lines _ carried fits
    rw [reply_update _ _ _ rfl]
    refine url.inquire_updateLines fits (fun update sent => ?_) ?_
    · obtain ⟨finite, back⟩ := carried update sent
      exact back finite
    · intro count counted
      exact ((updateLines_granted_iff sound _ count).mp counted).2
  case otherLines =>
    intro σ exchange state key other
    apply reply_unsupported
    cases key with
    | shipment direction number => exact absurd rfl (other direction number)
    | shipments | requisitions => rfl
  case otherShipments =>
    intro σ exchange state key other
    apply reply_unsupported
    cases key with
    | shipments direction => exact absurd rfl (other direction)
    | shipment | requisitions => rfl
  case otherRequisitions =>
    intro σ exchange state key other
    apply reply_unsupported
    cases key with
    | requisitions => exact absurd rfl other
    | shipment | shipments => rfl

theorem Transparent.mono {Carried Also : Binary64 → Prop} {limit : Nat} {client : Client}
    {database : Database} (transparent : Transparent Carried limit client database)
    (carries : ∀ number, Also number → Carried number) :
    Transparent Also limit client database :=
  { transparent with
    fetchLines := fun direction number carried =>
      transparent.fetchLines direction number fun detail answered double inside =>
        carries double (carried detail answered double inside)
    updateLines := fun lines stock carried fits =>
      transparent.updateLines lines stock (fun update sent =>
        ⟨(carried update sent).1, carries update.packs (carried update sent).2⟩) fits }

/-- After writes of finite doubles a client at the address of a service is transparent for
every double that its text is read as. -/
theorem transparent_writeAll {writes : List Write}
    (finite : ∀ write ∈ writes, write.PutsGood fun number => number.isFinite = true)
    (url : HostUrl) (limit : Nat) :
    Transparent IsCarried limit (Client.ofUrl url.text) (empty.writeAll writes) :=
  url.transparent limit (sound_writeAll writes) fun _ _ _ answered =>
    isFinite_of_shipmentDetail finite answered

/-! ### A bill

A shipment with one service, the total of which may be any number. -/

namespace Bill

def url : HostUrl where
  scheme := "http".toList
  host := "localhost:8000".toList
  slashes := 1
  schemeEnds := by decide
  hostNamed := by decide
  hostEnds := by decide

def shipment : Shipment where
  id := "a"
  number := 1
  direction := .inbound
  status := .new
  party := "Clinic"
  onHold := false
  createdAt := .epoch

def opening : List Write := [.createShipment "a" .epoch .inbound "Clinic"]

variable (total : Binary64)

def line : Line := ⟨"b", "a", ⟨"c", "C", "Audit"⟩, .service total none⟩

def writes : List Write := opening ++ [.addLine "b" "a" (line total).item (line total).content]

theorem writeAll_writes :
    empty.writeAll (writes total) =
      (empty.writeAll opening).withLine (.written (line total)) := by
  have isOpen : (empty.writeAll opening).isOpen = true := by decide
  have noLines : (empty.writeAll opening).lines = [] := by decide
  have accepted : (empty.writeAll opening).acceptsLine (.written (line total)) = true := by
    refine acceptsLine_written ?_
    rw [noLines]
    exact List.forall_mem_nil _
  have owned : (empty.writeAll opening).hasShipmentOf (.written (line total)) = true := by
    have known : ∃ row ∈ (empty.writeAll opening).shipments, row.id = .text "a" := by decide
    exact (hasShipmentOf_written _ (line total)).mpr known
  show ((empty.writeAll opening).addLine "b" "a" (line total).item (line total).content).1 = _
  rw [addLine_eq isOpen]
  exact congrArg Prod.fst (if_pos (Bool.and_eq_true_iff.mpr ⟨accepted, owned⟩))

variable {total}

theorem linesOf_writes (isNumber : total.isNaN = false) :
    (empty.writeAll (writes total)).linesOf "a" = .ok [(line total).kept] := by
  have isOpen : ((empty.writeAll opening).withLine (.written (line total))).isOpen = true := by
    show (empty.writeAll opening).isOpen = true
    decide
  have noLines : (empty.writeAll opening).lines = [] := by decide
  have numeric : (line total).content.IsNumeric :=
    (line total).content.isNumeric_iff.mpr (List.forall_mem_singleton.mpr isNumber)
  have rows : ((empty.writeAll opening).withLine (.written (line total))).lines =
      [line total].map LineRow.written := by
    rw [withLine, noLines]
    rfl
  rw [writeAll_writes, linesOf, listing_eq_ok _ isOpen, rows]
  exact readAll_written (List.forall_mem_singleton.mpr (LineRow.read_written numeric))

theorem shipmentDetail_writes (isNumber : total.isNaN = false) :
    Service.shipmentDetail (empty.writeAll (writes total)) .inbound 1 =
      .ok ⟨shipment, [(line total).kept]⟩ := by
  have named : (empty.writeAll (writes total)).shipmentByNumber .inbound 1 =
      .ok (some shipment) := by
    have opened : (empty.writeAll opening).shipmentByNumber .inbound 1 = .ok (some shipment) := by
      decide +kernel
    rw [writeAll_writes]
    exact opened
  refine bind_eq_ok.mpr ⟨shipment, ?_, bind_eq_ok.mpr ⟨[(line total).kept], ?_, rfl⟩⟩
  · rw [named]
    rfl
  · rw [show shipment.id = "a" from rfl, linesOf_writes isNumber]
    rfl

theorem finite_writes (finite : total.isFinite = true) :
    ∀ write ∈ writes total, write.PutsGood fun number => number.isFinite = true := by
  rintro write (_ | ⟨_, _ | ⟨_, ⟨⟩⟩⟩)
  · trivial
  · exact List.forall_mem_singleton.mpr finite

end Bill

theorem eq_of_isZero {number : Binary64} (zero : number.isZero = true) :
    number = ⟨0⟩ ∨ number = ⟨0x8000000000000000⟩ := by
  obtain ⟨bits⟩ := number
  have none : bits.toNat % 2 ^ 63 = 0 := of_decide_eq_true zero
  have fits := bits.toNat_lt
  have word : bits.toNat = 0 ∨ bits.toNat = 2 ^ 63 := by omega
  refine word.imp (fun same => ?_) (fun same => ?_)
  · exact congrArg Binary64.mk (UInt64.toNat_inj.mp same)
  · exact congrArg Binary64.mk (UInt64.toNat_inj.mp same)

/-- A zero is read back with its sign. -/
theorem readsBack_of_isZero {number : Binary64} (zero : number.isZero = true) :
    ReadsBack number := by
  rcases eq_of_isZero zero with rfl | rfl <;> decide +kernel

/-- After writes of finite doubles, a client at the address of a service is transparent for
the doubles of a set exactly if the finite ones are what their texts are read as. -/
theorem transparent_iff (Carried : Binary64 → Prop) :
    (∀ writes : List Write,
      (∀ write ∈ writes, write.PutsGood fun number => number.isFinite = true) →
        ∀ (url : HostUrl) (limit : Nat),
          Transparent Carried limit (Client.ofUrl url.text) (empty.writeAll writes)) ↔
      ∀ number, Carried number → number.isFinite = true → ReadsBack number := by
  constructor
  · intro transparent number carried finite
    by_cases zero : number.isZero = true
    · exact readsBack_of_isZero zero
    · have kept : (Bill.line number).kept = Bill.line number := by
        show { Bill.line number with content := .service number.kept none } = Bill.line number
        rw [Binary64.kept, if_neg zero]
        rfl
      have answered := Bill.shipmentDetail_writes (Binary64.isNaN_of_isFinite finite)
      rw [kept] at answered
      have shown := (transparent _ (Bill.finite_writes finite) Bill.url 0).fetchLines .inbound 1
      rw [reply_fetch _ _ _ rfl, answered] at shown
      refine (Bill.url.inquire_lines_iff answered).mp (shown ?_) number ?_
      · rintro detail ⟨⟩ other inside
        obtain rfl := List.mem_singleton.mp inside
        exact carried
      · exact List.mem_singleton.mpr rfl
  · intro carries writes finite url limit
    exact (transparent_writeAll finite url limit).mono carries

/-! ### A double that is not carried -/

namespace Rounded

def line (packs : Binary64) : Line :=
  ⟨"b", "a", ⟨"c", "C", "Gauze"⟩, .stockIn ⟨none, none, 1, packs⟩ .zero⟩

def writes : List Write :=
  [.createShipment "a" .epoch .inbound "Clinic", .addLine "b" "a" (line .zero).item
    (line .zero).content]

def store : Database := empty.writeAll writes

/-- Two elevenths, the text of which is read as the double above. -/
def twoElevenths : Binary64 := ⟨0x3fc745d1745d1746⟩

theorem finite_writes :
    ∀ write ∈ writes, write.PutsGood fun number => number.isFinite = true := by
  rintro write (_ | ⟨_, _ | ⟨_, ⟨⟩⟩⟩)
  · trivial
  · show ∀ number ∈ (line .zero).content.doubles, number.isFinite = true
    decide

/-- A half is stored as the service stores it. -/
theorem transparent_rounded :
    Client.reply (Client.ofUrl Bill.url.text) (Router.exchange 65536) store
        (.update [line ⟨0x3fe0000000000000⟩] : Ask Line) =
      toldOf (Service.updateLines store [⟨"b", "a", ⟨0x3fe0000000000000⟩⟩]) ∧
    (Service.updateLines store [⟨"b", "a", ⟨0x3fe0000000000000⟩⟩]).2.toOption = some 1 := by
  have transparent := (transparent_iff IsCarried).mpr (fun _ carried => carried) writes
    finite_writes Bill.url 65536
  refine ⟨transparent.updateLines [line ⟨0x3fe0000000000000⟩] ⟨_, List.mem_cons_self, rfl⟩ ?_ ?_,
    by decide +kernel⟩
  · rintro update (_ | ⟨_, ⟨⟩⟩)
    have back : ReadsBack ⟨0x3fe0000000000000⟩ := by decide +kernel
    exact ⟨by decide, fun _ => back⟩
  · unfold Fits
    decide +kernel

/-- A client is not transparent for every finite double: what is stored of two elevenths is
not what the service stores of them. -/
theorem not_transparent_rounded :
    ¬∀ writes : List Write,
      (∀ write ∈ writes, write.PutsGood fun number => number.isFinite = true) →
        ∀ (url : HostUrl) (limit : Nat),
          Transparent (fun _ => True) limit (Client.ofUrl url.text) (empty.writeAll writes) := by
  intro transparent
  have fits : Fits 65536
      (UpdateRequest.mk ([line twoElevenths].filterMap Inquiry.packUpdate?)) := by
    unfold Fits
    decide +kernel
  have same := (transparent writes finite_writes Bill.url 65536).updateLines [line twoElevenths]
    ⟨_, List.mem_cons_self, rfl⟩ (by decide) fits
  have differs : ((Client.ofUrl Bill.url.text).reply (Router.exchange 65536) store
      (.update [line twoElevenths] : Ask Line)).1 ≠
      (Service.updateLines store [⟨"b", "a", twoElevenths⟩]).1 := by
    decide +kernel
  exact differs (congrArg Prod.fst same)

end Rounded

end Depot.Http
