import Depot.Proofs.Screen.Guess

/-!
Contract: a client and the service decide alike what may be deleted.

The rules are written twice. A screen looks at the header that it shows and at the rows
that are selected, and then sends targets; the service knows nothing of the screen and reads
the stored records of each target. With the stored rows on the screen, a deletion leaves the
client exactly when the service would grant it, and both count the same rows.

Owns: the two decisions side by side, for all three screens.
Does not own: what the screen shows meanwhile (`Depot.Proofs.Screen.Deletion`).
-/

namespace Depot

open Database

variable {ρ σ : Type} [Row ρ]

/-- The client's own decision about a deletion. -/
structure Removal.Admitted (request : Removal ρ) : Prop where
  enabled : request.disabled = false
  selected : request.rows ≠ []
  allowed : ∀ row ∈ request.rows, request.eligibility.allows row = true

/-- A deletion of some rows reaches the source when the service grants it, and its outcome
has the count of the service. -/
structure Course.Agrees (course : Course ρ) (rows : List ρ)
    (granted : List Target → Database × Service.Answer Nat) : Prop where
  reaches : course.questions ≠ [] ↔
    rows ≠ [] ∧ ∃ count, (granted (rows.map Row.target)).2 = .ok count
  counted : ∀ count, rows ≠ [] → (granted (rows.map Row.target)).2 = .ok count →
    ∃ write settle, course.questions = [write, settle] ∧
      write.ask = .remove (rows.map Row.target) ∧
      course.finding = .outcome (if write.answered then .committed count else .rolledBack)

/-! ### One decision for all screens -/

/-- The source is asked about the deletions that the client admits. -/
theorem Course.Deletes.questions_ne_nil_iff {course : Course ρ} {desk : Desk ρ}
    {request : Removal ρ} (deletes : course.Deletes desk request) :
    course.questions ≠ [] ↔ request.Admitted := by
  constructor
  · intro asked
    cases request.standing with
    | disabled disabled => exact absurd (deletes.disabled disabled).questions asked
    | nothing enabled none => exact absurd (deletes.nothing enabled none).questions asked
    | barred enabled barred => exact absurd (deletes.barred enabled barred).questions asked
    | admitted enabled selected allowed => exact ⟨enabled, selected, allowed⟩
  · rintro ⟨enabled, selected, allowed⟩
    obtain ⟨write, settle, carried⟩ := deletes.carried enabled selected allowed
    rw [carried.questions]
    exact List.cons_ne_nil write [settle]

theorem distinctIds_target {rows : List ρ} (distinct : (rows.map Row.id).Nodup) :
    Service.distinctIds (rows.map Row.target) = rows.map Row.id := by
  have ids : (rows.map Row.target).map Target.id = rows.map Row.id := by
    rw [List.map_map]
    rfl
  show ((rows.map Row.target).map Target.id).eraseDups = rows.map Row.id
  rw [ids, Service.eraseDups_of_nodup distinct]

/-- A check of the service that passes for the rows that a client admits makes the two agree,
if no row is selected twice. -/
theorem Desk.agrees_remove (world : World σ ρ) (state : σ) (desk : Desk ρ)
    (request : Removal ρ) {granted : List Target → Database × Service.Answer Nat}
    {checked : List Target → Service.Answer Unit}
    (distinct : (request.rows.map Row.id).Nodup)
    (grants : ∀ targets count, (granted targets).2 = .ok count ↔
      checked targets = .ok () ∧ (Service.distinctIds targets).length = count)
    (alike : checked (request.rows.map Row.target) = .ok () ↔ request.Admitted) :
    (desk.follow world state (desk.remove request)).Agrees request.rows granted := by
  have deletes := desk.follow_remove world state request
  have grantedIff : ∀ count, (granted (request.rows.map Row.target)).2 = .ok count ↔
      request.Admitted ∧ request.rows.length = count := by
    intro count
    rw [grants, alike, distinctIds_target distinct, List.length_map]
  refine ⟨?_, ?_⟩
  · rw [deletes.questions_ne_nil_iff]
    constructor
    · intro admitted
      exact ⟨admitted.selected, _, (grantedIff _).mpr ⟨admitted, rfl⟩⟩
    · rintro ⟨-, count, grant⟩
      exact ((grantedIff count).mp grant).1
  · intro count selected grant
    obtain ⟨admitted, rfl⟩ := (grantedIff count).mp grant
    obtain ⟨write, settle, carried⟩ :=
      deletes.carried admitted.enabled admitted.selected admitted.allowed
    exact ⟨write, settle, carried.questions, carried.sent, carried.finding⟩

/-! ### Lines -/

namespace ShipmentScreen

variable {screen : ShipmentScreen} {database : Database} {desk : Desk Line} {lines : List Line}

/-- For a line that is shown, the service looks at what the client looked at. -/
theorem Mirrors.checkLineDeletion_iff (sound : database.Sound)
    (mirrors : screen.Mirrors desk.cache database lines) {line : Line} (member : line ∈ lines) :
    Service.checkLineDeletion database (Row.target line) = .ok () ↔
      screen.isDisabled = false ∧ screen.eligibility.allows line = true := by
  have allows : screen.eligibility.allows line = true ↔
      line.isService = true ∨ line.kind = screen.header.direction.stockKind := by
    simp [eligibility, Eligibility.linesOf]
  rw [Service.checkLineDeletion_eq_ok, allows]
  constructor
  · rintro ⟨shipmentId, found, shipment, parent, editable, fits⟩
    obtain ⟨stored, owned, header, unlocked⟩ := (Service.editableLine_eq_ok ..).mp editable
    obtain ⟨listed, belongs⟩ := sound.lineById_of_mem mirrors.stored member
    have sameLine : found = line := by
      have both : Except.ok (some line) = Except.ok (some found) := listed.symm.trans stored
      injection both with both
      exact (Option.some.inj both).symm
    subst sameLine
    have sameShipment : shipment = screen.header := by
      rw [← owned, belongs] at header
      have both := mirrors.header.symm.trans header
      injection both with both
      exact (Option.some.inj both).symm
    subst sameShipment
    exact ⟨unlocked, fits⟩
  · rintro ⟨unlocked, fits⟩
    exact ⟨line.shipmentId, line, screen.header, rfl,
      mirrors.editableLine sound unlocked member, fits⟩

theorem agrees_remove (sound : database.Sound) (world : World σ Line) (state : σ)
    (mirrors : screen.Mirrors desk.cache database lines) :
    (desk.follow world state (desk.remove (screen.removal desk.cache))).Agrees
      (screen.removal desk.cache).rows (Service.deleteLines database) := by
  have selected : (screen.removal desk.cache).rows.Subperm lines := by
    rw [← mirrors.cached_eq]
    exact screen.selectedRows_subperm _ _
  have distinct : ((screen.removal desk.cache).rows.map Row.id).Nodup := by
    obtain ⟨shown, rearranged, within⟩ := selected
    refine (rearranged.map Line.id).nodup_iff.mp ?_
    exact (within.map Line.id).nodup (sound.nodup_linesOf mirrors.stored)
  refine desk.agrees_remove world state _ distinct
    (Service.deleteLines_granted_iff sound) ?_
  rw [Service.checkLineDeletions_eq_ok]
  constructor
  · rintro ⟨some, passed⟩
    have rows : (screen.removal desk.cache).rows ≠ [] := fun none => some (by rw [none]; rfl)
    have each : ∀ line ∈ (screen.removal desk.cache).rows,
        screen.isDisabled = false ∧ screen.eligibility.allows line = true := by
      intro line member
      exact (mirrors.checkLineDeletion_iff sound (selected.subset member)).mp
        (passed _ (List.mem_map_of_mem member))
    obtain ⟨line, member⟩ := List.exists_mem_of_ne_nil _ rows
    exact ⟨(each line member).1, rows, fun other inside => (each other inside).2⟩
  · rintro ⟨enabled, rows, allowed⟩
    refine ⟨fun none => rows (List.map_eq_nil_iff.mp none), ?_⟩
    intro target member
    obtain ⟨line, inside, rfl⟩ := List.mem_map.mp member
    exact (mirrors.checkLineDeletion_iff sound (selected.subset inside)).mpr
      ⟨enabled, allowed line inside⟩

end ShipmentScreen

/-! ### Shipments and requisitions -/

namespace ListScreen

/-- On a list of whole records, the two agree if the service's check of a listed record is
the client's rule. -/
theorem agrees_remove (world : World σ ρ) (state : σ) (desk : Desk ρ)
    (screen : ListScreen ρ) {rows : List ρ} (cached : desk.cache.get? screen.key = some rows)
    (distinct : (rows.map Row.id).Nodup)
    {granted : List Target → Database × Service.Answer Nat}
    {checked : List Target → Service.Answer Unit} {check : Target → Service.Answer Unit}
    (grants : ∀ targets count, (granted targets).2 = .ok count ↔
      checked targets = .ok () ∧ (Service.distinctIds targets).length = count)
    (checks : ∀ targets, checked targets = .ok () ↔
      targets ≠ [] ∧ ∀ target ∈ targets, check target = .ok ())
    (alike : ∀ row ∈ rows,
      check (Row.target row) = .ok () ↔ screen.eligibility.allows row = true) :
    (desk.follow world state (desk.remove (screen.removal desk.cache))).Agrees
      (screen.removal desk.cache).rows granted := by
  have listed : (screen.removal desk.cache).rows.Sublist rows := by
    show ((RowsView.flat ((desk.cache.get? screen.key).getD [])).selectedRows
      screen.selection).Sublist rows
    rw [cached, Option.getD_some]
    exact List.filter_sublist
  refine desk.agrees_remove world state _ ((listed.map Row.id).nodup distinct) grants ?_
  rw [checks]
  constructor
  · rintro ⟨some, passed⟩
    refine ⟨rfl, fun none => some (by rw [none]; rfl), ?_⟩
    intro row member
    exact (alike row (listed.subset member)).mp (passed _ (List.mem_map_of_mem member))
  · rintro ⟨-, selected, allowed⟩
    refine ⟨fun none => selected (List.map_eq_nil_iff.mp none), ?_⟩
    intro target member
    obtain ⟨row, inside, rfl⟩ := List.mem_map.mp member
    exact (alike row (listed.subset inside)).mpr (allowed row inside)

variable {database : Database} (sound : database.Sound)

include sound

theorem agrees_remove_shipments {direction : Direction} {selection : Selection}
    (world : World σ Shipment) (state : σ) (desk : Desk Shipment) {rows : List Shipment}
    (stored : database.listShipments direction = .ok rows)
    (cached : desk.cache.get? (.shipments direction) = some rows) :
    (desk.follow world state
        (desk.remove ({ shipments direction with selection }.removal desk.cache))).Agrees
      ({ shipments direction with selection }.removal desk.cache).rows
      (Service.deleteShipments database) := by
  refine agrees_remove world state desk _ cached (sound.nodup_listShipments stored)
    (Service.deleteShipments_granted_iff sound) (Service.checkShipmentDeletions_eq_ok database) ?_
  intro shipment member
  have found := sound.shipmentById_of_mem stored member
  show Service.checkShipmentDeletion database shipment.id = .ok () ↔
    decide (shipment.status = .new) = true
  rw [Service.checkShipmentDeletion_eq_ok, found, decide_eq_true_iff]
  simp

theorem agrees_remove_requisitions {selection : Selection} (world : World σ Requisition)
    (state : σ) (desk : Desk Requisition) {rows : List Requisition}
    (stored : database.listRequisitions = .ok rows)
    (cached : desk.cache.get? .requisitions = some rows) :
    (desk.follow world state
        (desk.remove ({ requisitions with selection }.removal desk.cache))).Agrees
      ({ requisitions with selection }.removal desk.cache).rows
      (Service.deleteRequisitions database) := by
  refine agrees_remove world state desk _ cached (sound.nodup_listRequisitions stored)
    (Service.deleteRequisitions_granted_iff sound)
    (Service.checkRequisitionDeletions_eq_ok database) ?_
  intro requisition member
  have found := sound.requisitionById_of_mem stored member
  show Service.checkRequisitionDeletion database requisition.id = .ok () ↔
    decide (requisition.status = .draft) = true
  rw [Service.checkRequisitionDeletion_eq_ok, found, decide_eq_true_iff]
  simp

end ListScreen

/-! ### All screens of a database -/

/-- Screens that show what the database holds ask the source for exactly the deletions that
the service grants. -/
structure Database.Agreed (database : Database) : Prop where
  lines : ∀ {σ : Type} (world : World σ Line) (state : σ) (screen : ShipmentScreen)
    (desk : Desk Line) (rows : List Line),
    screen.Mirrors desk.cache database rows →
    (desk.follow world state (desk.remove (screen.removal desk.cache))).Agrees
      (screen.removal desk.cache).rows (Service.deleteLines database)
  shipments : ∀ {σ : Type} (world : World σ Shipment) (state : σ) (direction : Direction)
    (selection : Selection) (desk : Desk Shipment) (rows : List Shipment),
    database.listShipments direction = .ok rows →
    desk.cache.get? (.shipments direction) = some rows →
    (desk.follow world state (desk.remove
        ({ ListScreen.shipments direction with selection }.removal desk.cache))).Agrees
      ({ ListScreen.shipments direction with selection }.removal desk.cache).rows
      (Service.deleteShipments database)
  requisitions : ∀ {σ : Type} (world : World σ Requisition) (state : σ)
    (selection : Selection) (desk : Desk Requisition) (rows : List Requisition),
    database.listRequisitions = .ok rows →
    desk.cache.get? .requisitions = some rows →
    (desk.follow world state (desk.remove
        ({ ListScreen.requisitions with selection }.removal desk.cache))).Agrees
      ({ ListScreen.requisitions with selection }.removal desk.cache).rows
      (Service.deleteRequisitions database)

theorem Database.agreed_writeAll (writes : List Write) : (empty.writeAll writes).Agreed where
  lines world state _ _ _ mirrors :=
    ShipmentScreen.agrees_remove (sound_writeAll writes) world state mirrors
  shipments world state _ _ desk _ stored cached :=
    ListScreen.agrees_remove_shipments (sound_writeAll writes) world state desk stored cached
  requisitions world state _ desk _ stored cached :=
    ListScreen.agrees_remove_requisitions (sound_writeAll writes) world state desk stored cached

/-! ### A delivery that is put down and then verified -/

namespace FirstDelivery

def verified : List Write := writes ++ [.setShipmentStatus "a" .verified]

def verifiedScreen : ShipmentScreen :=
  { screen with header := { shipment with status := .verified } }

/-- Nothing that is asked is answered. -/
def silence {ρ : Type} : World Unit ρ := fun state desk _ => (state, desk, .error .transport)

theorem verifiedScreen_mirrors :
    verifiedScreen.Mirrors lineDesk.cache (empty.writeAll verified) [line] where
  header := by decide +kernel
  stored := rfl
  cached := rfl

/-- Before the shipment is verified all three deletions leave the client, and afterwards its
line stays. -/
theorem agrees_firstDelivery :
    (lineDesk.follow silence () (lineDesk.remove (screen.removal lineDesk.cache))).questions ≠ [] ∧
      (shipmentDesk.follow silence ()
        (shipmentDesk.remove (shipmentScreen.removal shipmentDesk.cache))).questions ≠ [] ∧
      (requisitionDesk.follow silence ()
        (requisitionDesk.remove (requisitionScreen.removal requisitionDesk.cache))).questions ≠
          [] ∧
      (lineDesk.follow silence ()
        (lineDesk.remove (verifiedScreen.removal lineDesk.cache))).questions = [] := by
  have agreed := Database.agreed_writeAll writes
  refine ⟨?_, ?_, ?_, ?_⟩
  · have rows : (screen.removal lineDesk.cache).rows = [line] := by cbv
    have granted : (Service.deleteLines (empty.writeAll writes) [Row.target line]).2 = .ok 1 := by
      decide +kernel
    refine (agreed.lines silence () screen lineDesk _ screen_mirrors).reaches.mpr ?_
    rw [rows]
    exact ⟨List.cons_ne_nil line [], 1, granted⟩
  · have stored : (empty.writeAll writes).listShipments .inbound = .ok [shipment] := by
      decide +kernel
    have granted : (Service.deleteShipments (empty.writeAll writes)
        [Row.target shipment]).2 = .ok 1 := by decide +kernel
    exact (agreed.shipments silence () .inbound _ shipmentDesk _ stored rfl).reaches.mpr
      ⟨by decide +kernel, 1, granted⟩
  · have stored : (empty.writeAll writes).listRequisitions = .ok [requisition] := by
      decide +kernel
    have granted : (Service.deleteRequisitions (empty.writeAll writes)
        [Row.target requisition]).2 = .ok 1 := by decide +kernel
    exact (agreed.requisitions silence () _ requisitionDesk _ stored rfl).reaches.mpr
      ⟨by decide +kernel, 1, granted⟩
  · have agreed := Database.agreed_writeAll verified
    have refused : ∀ count,
        (Service.deleteLines (empty.writeAll verified) [Row.target line]).2 ≠ .ok count := by
      have answer : (Service.deleteLines (empty.writeAll verified) [Row.target line]).2.toOption =
          none := by decide +kernel
      intro count granted
      rw [granted] at answer
      cases answer
    by_contra asked
    have rows : (verifiedScreen.removal lineDesk.cache).rows = [line] := by cbv
    obtain ⟨-, count, granted⟩ := (agreed.lines silence () verifiedScreen lineDesk _
      verifiedScreen_mirrors).reaches.mp asked
    rw [rows] at granted
    exact refused count granted

end FirstDelivery

end Depot
