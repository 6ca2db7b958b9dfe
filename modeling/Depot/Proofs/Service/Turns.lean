import Depot.Proofs.Database.Descent
import Depot.Proofs.Service.Talk

/-!
Contract: what becomes of locked shipments when talks take turns.

Requests about lines begin and turn to the database one at a time, while others set the
status and the hold of shipments. A batch of deletions looks at the locks once more, so that
no line of a locked shipment is deleted. A batch of pack counts does not: a shipment may be
locked after its update was checked and before the counts are stored, and then its lines
change nevertheless. This is the only way in which the line of a locked shipment can change.

Owns: turns, and the requests that a lock comes too late for.
Does not own: what one request says to the database (`Depot.Proofs.Service.Talk`).
-/

namespace Depot

open Database Decimal

namespace Service

/-! ### Turns -/

/-- A database with the talks that are going on. -/
structure Exchange where
  database : Database
  talks : List Talk

/-- What may happen next. -/
inductive Turn where
  | begin (request : Request)
  | advance (index : Nat)
  | setStatus (id : String) (status : ShipmentStatus)
  | setHold (id : String) (onHold : Bool)

namespace Exchange

def turn (exchange : Exchange) : Turn → Exchange
  | .begin request => { exchange with talks := exchange.talks ++ [request.talk] }
  | .advance index =>
      match exchange.talks[index]? with
      | none => exchange
      | some talk =>
          let after := talk.step exchange.database
          ⟨after.1, exchange.talks.set index after.2⟩
  | .setStatus id status =>
      { exchange with database := (exchange.database.setShipmentStatus id status).1 }
  | .setHold id onHold =>
      { exchange with database := (exchange.database.setShipmentHold id onHold).1 }

/-- The exchange after turns, of which each begins a request or is one step. -/
def run (database : Database) (turns : List Turn) : Exchange :=
  turns.foldl turn ⟨database, []⟩

theorem run_append_singleton (database : Database) (turns : List Turn) (last : Turn) :
    run database (turns ++ [last]) = (run database turns).turn last := by
  rw [run, List.foldl_append]
  rfl

end Exchange

open Exchange

/-- Whether the line belongs to a shipment that is locked. -/
def IsLocked (database : Database) (row : LineRow) : Prop :=
  ∃ owner shipment, row.shipmentId = .text owner ∧
    database.shipmentById owner = .ok (some shipment) ∧ shipment.linesLocked = true

/-- No step of a request deletes or changes a line whose shipment is locked at that moment. -/
def KeepsLocked (database : Database) (turns : List Turn) : Prop :=
  ∀ early index late, turns = early ++ .advance index :: late →
    ∀ row ∈ (run database early).database.lines, IsLocked (run database early).database row →
      row ∈ (run database (early ++ [.advance index])).database.lines

/-- A talk was told that the line belongs to the shipment. -/
def HeardLine (database : Database) (turns : List Turn) (index : Nat) (id owner : String) :
    Prop :=
  ∃ early late next line, turns = early ++ .advance index :: late ∧
    (run database early).talks[index]? = some (.askLine id next) ∧
    (run database early).database.lineById id = .ok (some line) ∧ line.shipmentId = owner

/-- A talk was told that the shipment is not locked. -/
def HeardFree (database : Database) (turns : List Turn) (index : Nat) (owner : String) : Prop :=
  ∃ early late next shipment, turns = early ++ .advance index :: late ∧
    (run database early).talks[index]? = some (.askShipment owner next) ∧
    (run database early).database.shipmentById owner = .ok (some shipment) ∧
    shipment.linesLocked = false

/-- An update that is overtaken: it goes through with another count for a line, whose
shipment the request was told is not locked, and which is locked by now. -/
structure Overtaken (database : Database) (early : List Turn) (index : Nat)
    (changes : List (String × Binary64)) (row : LineRow) (owner : String) : Prop where
  pending : (run database early).talks[index]? = some (.recount changes)
  accepted : ∃ count, ((run database early).database.updatePacks changes).2 = .ok count
  inside : row ∈ (run database early).database.lines
  recounted : ∃ id packs, row.id = .text id ∧ lastCount? changes id = some packs ∧
    row.packs ≠ (Cell.ofDouble packs).stored .real
  belongs : row.shipmentId = .text owner
  locked : ∃ shipment, (run database early).database.shipmentById owner = .ok (some shipment) ∧
    shipment.linesLocked = true
  heard : HeardFree database early index owner

/-! ### What a talk has heard -/

/-- Counts that a talk comes to are for lines that it was told to belong to a shipment that
is not locked, then or before. -/
def Talk.Vouched (belongs : String → String → Prop) (free : String → Prop) : Talk → Prop
  | .ended _ | .delete _ => True
  | .askLine id next => ∀ read, (next read).Vouched
      (fun line owner => belongs line owner ∨
        line = id ∧ ∃ found, read = .ok (some found) ∧ found.shipmentId = owner) free
  | .askShipment id next => ∀ read, (next read).Vouched belongs
      fun owner => free owner ∨
        owner = id ∧ ∃ found, read = .ok (some found) ∧ found.linesLocked = false
  | .recount changes => ∀ change ∈ changes, ∃ owner, belongs change.1 owner ∧ free owner

namespace Talk

variable {belongs more : String → String → Prop} {free freer : String → Prop}

theorem Vouched.mono {talk : Talk} (vouched : talk.Vouched belongs free)
    (lines : ∀ id owner, belongs id owner → more id owner)
    (shipments : ∀ owner, free owner → freer owner) : talk.Vouched more freer := by
  induction talk generalizing belongs more free freer with
  | ended answer => trivial
  | delete ids => trivial
  | askLine id next inductionHypothesis =>
      intro read
      refine inductionHypothesis read (vouched read) ?_ shipments
      exact fun line owner => Or.imp_left (lines line owner)
  | askShipment id next inductionHypothesis =>
      intro read
      refine inductionHypothesis read (vouched read) lines ?_
      exact fun owner => Or.imp_left (shipments owner)
  | recount changes =>
      intro change member
      obtain ⟨owner, told, unlocked⟩ := vouched change member
      exact ⟨owner, lines change.1 owner told, shipments owner unlocked⟩

theorem vouched_given {α : Type} {answer : Answer α} {next : α → Talk}
    (vouched : ∀ value, answer = .ok value → (next value).Vouched belongs free) :
    (given answer next).Vouched belongs free := by
  cases answer with
  | error rejection => trivial
  | ok value => exact vouched value rfl

/-- What follows a passed check may count on what the check was told. -/
theorem vouched_editable {id shipmentId : String} {next : Line → Talk}
    (vouched : ∀ line, (next line).Vouched
      (fun other owner => belongs other owner ∨ other = id ∧ owner = shipmentId)
      fun owner => free owner ∨ owner = shipmentId) :
    (editable id shipmentId next).Vouched belongs free := by
  intro readLine
  refine vouched_given ?_
  intro line isLine
  split
  next => trivial
  next mine =>
    intro readShipment
    refine vouched_given ?_
    intro shipment isShipment
    split
    next => trivial
    next unlocked =>
      rw [found_eq_ok] at isLine isShipment
      refine (vouched line).mono ?_ ?_
      · rintro other owner (told | ⟨rfl, rfl⟩)
        · exact .inl told
        · exact .inr ⟨rfl, line, isLine, not_not.mp mine⟩
      · rintro owner (told | rfl)
        · exact .inl told
        · refine .inr ⟨(not_not.mp mine).symm, shipment, isShipment, ?_⟩
          exact Bool.eq_false_of_not_eq_true unlocked

theorem vouched_deletions (ids : List String) (targets : List Target) :
    (deletions ids targets).Vouched belongs free := by
  induction targets generalizing belongs free with
  | nil => trivial
  | cons target targets inductionHypothesis =>
      refine vouched_given fun shipmentId parent => vouched_editable fun line read => ?_
      refine vouched_given fun shipment stored => ?_
      split
      next => exact inductionHypothesis
      next => trivial

theorem vouched_updates {changes : List (String × Binary64)} {entries : List PackUpdate}
    (told : ∀ change ∈ changes, (∃ owner, belongs change.1 owner ∧ free owner) ∨
      ∃ update ∈ entries, update.id = change.1) :
    (updates changes entries).Vouched belongs free := by
  induction entries generalizing belongs free with
  | nil =>
      intro change member
      rcases told change member with heard | ⟨update, none, -⟩
      · exact heard
      · cases none
  | cons entry entries inductionHypothesis =>
      rw [updates]
      split
      next => trivial
      next =>
        refine vouched_editable fun line => ?_
        split
        next => trivial
        next =>
          refine inductionHypothesis ?_
          intro change member
          rcases told change member with ⟨owner, mine, unlocked⟩ | ⟨update, listed, named⟩
          · exact .inl ⟨owner, .inl mine, .inl unlocked⟩
          · rcases List.mem_cons.mp listed with rfl | later
            · exact .inl ⟨update.shipmentId, .inr ⟨named.symm, rfl⟩, .inr rfl⟩
            · exact .inr ⟨update, later, named⟩

/-- A talk that has not begun has heard nothing, and asks before it stores. -/
theorem vouched_talk (request : Request) : request.talk.Vouched belongs free := by
  cases request with
  | deletion targets => exact vouched_given fun _ _ => vouched_deletions _ targets
  | update updates =>
      refine vouched_given fun _ _ => vouched_updates ?_
      intro change member
      obtain ⟨update, listed, rfl⟩ := List.mem_map.mp member
      exact .inr ⟨update, listed, rfl⟩

end Talk

section Heard

variable {database : Database} {turns : List Turn} {index : Nat} {owner : String}

theorem HeardLine.later {id : String} (heard : HeardLine database turns index id owner)
    (last : Turn) : HeardLine database (turns ++ [last]) index id owner := by
  obtain ⟨early, late, next, line, rfl, told⟩ := heard
  refine ⟨early, late ++ [last], next, line, ?_, told⟩
  rw [List.append_assoc, List.cons_append]

theorem HeardFree.later (heard : HeardFree database turns index owner) (last : Turn) :
    HeardFree database (turns ++ [last]) index owner := by
  obtain ⟨early, late, next, shipment, rfl, told⟩ := heard
  refine ⟨early, late ++ [last], next, shipment, ?_, told⟩
  rw [List.append_assoc, List.cons_append]

end Heard

/-- What a talk asks in its turn, it has heard from then on. -/
theorem vouched_step {database : Database} {turns : List Turn} {index : Nat} {talk : Talk}
    (going : (run database turns).talks[index]? = some talk)
    (vouched : talk.Vouched (HeardLine database turns index) (HeardFree database turns index)) :
    (talk.step (run database turns).database).2.Vouched
      (HeardLine database (turns ++ [.advance index]) index)
      (HeardFree database (turns ++ [.advance index]) index) := by
  cases talk with
  | ended answer => trivial
  | delete ids => trivial
  | recount changes => trivial
  | askLine id next =>
      refine (vouched ((run database turns).database.lineById id)).mono ?_ ?_
      · rintro other owner (heard | ⟨rfl, line, told, belongs⟩)
        · exact heard.later _
        · exact ⟨turns, [], next, line, rfl, going, told, belongs⟩
      · exact fun owner heard => heard.later _
  | askShipment id next =>
      refine (vouched ((run database turns).database.shipmentById id)).mono ?_ ?_
      · exact fun other owner heard => heard.later _
      · rintro owner (heard | ⟨rfl, shipment, told, unlocked⟩)
        · exact heard.later _
        · exact ⟨turns, [], next, shipment, rfl, going, told, unlocked⟩

/-- Every talk vouches for its counts with what it has heard in its turns. -/
theorem vouched_run (database : Database) (turns : List Turn) {index : Nat} {talk : Talk}
    (going : (run database turns).talks[index]? = some talk) :
    talk.Vouched (HeardLine database turns index) (HeardFree database turns index) := by
  induction turns using List.reverseRecOn generalizing index talk with
  | nil => cases going
  | append_singleton turns last inductionHypothesis =>
      have stays : ∀ {talk : Talk}, (run database turns).talks[index]? = some talk →
          talk.Vouched (HeardLine database (turns ++ [last]) index)
            (HeardFree database (turns ++ [last]) index) := by
        intro talk going
        exact (inductionHypothesis going).mono (fun id owner heard => heard.later last)
          fun owner heard => heard.later last
      rw [run_append_singleton] at going
      cases last with
      | begin request =>
          rw [turn, List.getElem?_append] at going
          split at going
          next => exact stays going
          next =>
            rw [List.mem_singleton.mp (List.mem_of_getElem? going)]
            exact Talk.vouched_talk request
      | setStatus id status => exact stays going
      | setHold id onHold => exact stays going
      | advance other =>
          cases asked : (run database turns).talks[other]? with
          | none =>
              simp only [turn, asked] at going
              exact stays going
          | some current =>
              simp only [turn, asked] at going
              by_cases same : other = index
              · subst same
                have inside := (List.getElem?_eq_some_iff.mp asked).1
                rw [List.getElem?_set_self inside] at going
                cases going
                exact vouched_step asked (inductionHypothesis asked)
              · rw [List.getElem?_set_ne same] at going
                exact stays going

/-! ### Runs -/

theorem fst_runChecked (database : Database) (batch : Database × Except Fault Nat)
    (rejection : Fault → Rejection) :
    (runChecked database (.ok ()) batch rejection).1 = batch.1 := by
  obtain ⟨after, answer⟩ := batch
  cases answer <;> rfl

/-- A turn is a write that makes nothing, or none. -/
theorem exists_writes_turn (exchange : Exchange) (next : Turn) :
    ∃ writes : List Write, (∀ write ∈ writes, write.newId? = none) ∧
      (exchange.turn next).database = exchange.database.writeAll writes := by
  cases next with
  | begin request => exact ⟨[], List.forall_mem_nil _, rfl⟩
  | setStatus id status =>
      exact ⟨[.setShipmentStatus id status], List.forall_mem_singleton.mpr rfl, rfl⟩
  | setHold id onHold =>
      exact ⟨[.setShipmentHold id onHold], List.forall_mem_singleton.mpr rfl, rfl⟩
  | advance index =>
      cases asked : exchange.talks[index]? with
      | none => exact ⟨[], List.forall_mem_nil _, by simp only [turn, asked]; rfl⟩
      | some talk =>
          cases talk with
          | ended => exact ⟨[], List.forall_mem_nil _, by simp only [turn, asked]; rfl⟩
          | askLine => exact ⟨[], List.forall_mem_nil _, by simp only [turn, asked]; rfl⟩
          | askShipment => exact ⟨[], List.forall_mem_nil _, by simp only [turn, asked]; rfl⟩
          | delete ids =>
              refine ⟨[.deleteLines ids], List.forall_mem_singleton.mpr rfl, ?_⟩
              simp only [turn, asked]
              exact fst_runChecked exchange.database _ _
          | recount changes =>
              refine ⟨[.updatePacks changes], List.forall_mem_singleton.mpr rfl, ?_⟩
              simp only [turn, asked]
              exact fst_runChecked exchange.database _ _

theorem exists_writes_run (database : Database) (early late : List Turn) :
    ∃ writes : List Write, (∀ write ∈ writes, write.newId? = none) ∧
      (run database (early ++ late)).database = (run database early).database.writeAll writes := by
  induction late using List.reverseRecOn with
  | nil => exact ⟨[], List.forall_mem_nil _, by rw [List.append_nil]; rfl⟩
  | append_singleton late last inductionHypothesis =>
      obtain ⟨writes, nothing, same⟩ := inductionHypothesis
      obtain ⟨more, nothingMore, sameLast⟩ :=
        exists_writes_turn (run database (early ++ late)) last
      refine ⟨writes ++ more, List.forall_mem_append.mpr ⟨nothing, nothingMore⟩, ?_⟩
      rw [← List.append_assoc, run_append_singleton, sameLast, same, writeAll_append]

theorem sound_run {database : Database} (sound : database.Sound) (turns : List Turn) :
    (run database turns).database.Sound := by
  obtain ⟨writes, -, same⟩ := exists_writes_run database [] turns
  rw [List.nil_append] at same
  rw [same]
  exact sound.writeAll writes

/-- A line still belongs to the shipment that a talk was told. -/
theorem HeardLine.belongs {database : Database} (sound : database.Sound) {turns : List Turn}
    {index : Nat} {id owner : String} (heard : HeardLine database turns index id owner)
    {row : LineRow} (inside : row ∈ (run database turns).database.lines)
    (named : row.id = .text id) : row.shipmentId = .text owner := by
  obtain ⟨early, late, next, line, rfl, -, told, rfl⟩ := heard
  have soundEarly := sound_run sound early
  obtain ⟨old, there, sameName, reads⟩ := (soundEarly.lineById_eq_ok ..).mp told
  obtain ⟨writes, nothing, same⟩ := exists_writes_run database early (.advance index :: late)
  rw [same] at inside
  have owners := soundEarly.sameOwners_writeAll nothing
  have kept := owners.descends_of_id (fun _ _ => And.left) soundEarly.lineIds there inside
    (named.trans sameName.symm) not_false
  exact kept.2.trans ((soundEarly.lines old there).of_read reads).2.1

/-! ### Batches -/

section Batches

variable {database : Database} {row : LineRow}

/-- A batch of deletions looks at the lock itself. -/
theorem mem_deleteLines (sound : database.Sound) (inside : row ∈ database.lines)
    (locked : IsLocked database row) (ids : List String) :
    row ∈ (database.deleteLines ids).1.lines := by
  rcases deleteLines_cases sound.isOpen ids with ran | ⟨fault, ran⟩
  · have can := canDeleteLine_of_deleteLines sound.isOpen (congrArg Prod.snd ran)
    rw [ran]
    refine List.mem_filter.mpr ⟨inside, ?_⟩
    rw [Bool.not_eq_true']
    refine Bool.eq_false_of_not_eq_true fun named => ?_
    obtain ⟨id, listed, same⟩ := List.any_eq_true.mp named
    have named : row.id = .text id := of_decide_eq_true same
    obtain ⟨owner, shipment, owned, reads, unlocked⟩ := can id listed
    obtain ⟨ownerId, header, belongs, stored, isLocked⟩ := locked
    obtain ⟨first, there, hasName, readsFirst⟩ := (sound.shipmentById_eq_ok ..).mp stored
    have found : database.lineRow? id = some row :=
      (find?_eq_some_iff LineRow.id sound.lineIds id row).mpr ⟨inside, named⟩
    -- The shipment that the batch looks at is the one that is locked.
    rw [ownerRow?, found, Option.bind_some, belongs] at owned
    simp only [Cell.agrees_text] at owned
    have ownerFirst := (find?_eq_some_iff ShipmentRow.id sound.shipmentIds ownerId first).mpr
      ⟨there, hasName⟩
    rw [ownerFirst] at owned
    cases owned
    rw [readsFirst] at reads
    cases reads
    rw [unlocked] at isLocked
    cases isLocked
  · rw [ran]
    exact inside

/-- A batch of counts leaves a line as it is, or goes through with another count for it. -/
theorem mem_updatePacks_or (sound : database.Sound) (inside : row ∈ database.lines)
    (changes : List (String × Binary64)) :
    row ∈ (database.updatePacks changes).1.lines ∨
      (∃ count, (database.updatePacks changes).2 = .ok count) ∧
        ∃ id packs, row.id = .text id ∧ lastCount? changes id = some packs ∧
          row.packs ≠ (Cell.ofDouble packs).stored .real := by
  obtain ⟨id, named⟩ := (sound.lines row inside).id
  rcases updatePacks_cases sound.isOpen changes with ran | ⟨fault, ran⟩
  · rw [ran]
    rcases LineRow.foldl_repack_cases named changes with stays | ⟨packs, last, differs⟩
    · exact .inl (List.mem_map.mpr ⟨row, inside, stays⟩)
    · exact .inr ⟨⟨_, rfl⟩, id, packs, named, last, differs⟩
  · rw [ran]
    exact .inl inside

/-- A line that is given another count is there no more as it was. -/
theorem notMem_updatePacks (sound : database.Sound) (inside : row ∈ database.lines)
    {changes : List (String × Binary64)} {count : Nat}
    (accepted : (database.updatePacks changes).2 = .ok count) {id : String} {packs : Binary64}
    (named : row.id = .text id) (last : lastCount? changes id = some packs)
    (differs : row.packs ≠ (Cell.ofDouble packs).stored .real) :
    row ∉ (database.updatePacks changes).1.lines := by
  have can := canSetPacks_of_updatePacks sound.isOpen accepted _ (mem_of_lastCount? last)
  have found : database.lineRow? id = some row :=
    (find?_eq_some_iff LineRow.id sound.lineIds id row).mpr ⟨inside, named⟩
  rw [CanSetPacks, found, Option.any_some] at can
  rcases updatePacks_cases sound.isOpen changes with ran | ⟨fault, ran⟩
  · rw [ran]
    intro member
    obtain ⟨old, there, same⟩ := List.mem_map.mp member
    have sameName : old.id = row.id := by rw [← same, LineRow.id_foldl_repack]
    cases List.inj_on_of_nodup_map sound.lineIds there inside sameName
    rw [LineRow.foldl_repack named can, last] at same
    exact differs (congrArg LineRow.packs same).symm
  · rw [ran] at accepted
    cases accepted

end Batches

theorem database_advance {database : Database} {early : List Turn} {index : Nat} {talk : Talk}
    (going : (run database early).talks[index]? = some talk) :
    (run database (early ++ [.advance index])).database =
      (talk.step (run database early).database).1 := by
  rw [run_append_singleton]
  simp only [turn, going]

/-- Locked shipments keep their lines, but for updates that a lock overtakes. -/
theorem keepsLocked_iff (writes : List Write) (turns : List Turn) :
    KeepsLocked (empty.writeAll writes) turns ↔
      ∀ early index late changes row owner, turns = early ++ .advance index :: late →
        ¬Overtaken (empty.writeAll writes) early index changes row owner := by
  have sound : ∀ early, (run (empty.writeAll writes) early).database.Sound :=
    sound_run (sound_writeAll writes)
  constructor
  · intro keeps early index late changes row owner split overtaken
    obtain ⟨count, accepted⟩ := overtaken.accepted
    obtain ⟨id, packs, named, last, differs⟩ := overtaken.recounted
    obtain ⟨shipment, stored, isLocked⟩ := overtaken.locked
    have kept := keeps early index late split row overtaken.inside
      ⟨owner, shipment, overtaken.belongs, stored, isLocked⟩
    rw [database_advance overtaken.pending, Talk.step, Prod.map_fst, id_eq, Talk.runRecount,
      fst_runChecked] at kept
    exact notMem_updatePacks (sound early) overtaken.inside accepted named last differs kept
  · intro none early index late split row inside locked
    cases going : (run (empty.writeAll writes) early).talks[index]? with
    | none =>
        rw [run_append_singleton]
        simp only [turn, going]
        exact inside
    | some talk =>
        rw [database_advance going]
        cases talk with
        | ended answer => exact inside
        | askLine id next => exact inside
        | askShipment id next => exact inside
        | delete ids =>
            rw [Talk.step, Prod.map_fst, id_eq, Talk.runDelete, fst_runChecked]
            exact mem_deleteLines (sound early) inside locked ids
        | recount changes =>
            rw [Talk.step, Prod.map_fst, id_eq, Talk.runRecount, fst_runChecked]
            rcases mem_updatePacks_or (sound early) inside changes with stays | other
            · exact stays
            · obtain ⟨accepted, id, packs, named, last, differs⟩ := other
              obtain ⟨owner, shipment, belongs, stored, isLocked⟩ := locked
              obtain ⟨told, line, free⟩ := vouched_run _ early going _ (mem_of_lastCount? last)
              have same : told = owner := Cell.text.inj
                ((line.belongs (sound_writeAll writes) inside named).symm.trans belongs)
              exact absurd {
                pending := going
                accepted
                inside
                recounted := ⟨id, packs, named, last, differs⟩
                belongs
                locked := ⟨shipment, stored, isLocked⟩
                heard := same ▸ free } (none early index late changes row owner split)

/-! ### A shipment that is verified in between -/

namespace Overtaking

def writes : List Write :=
  [.createShipment "a" .epoch .inbound "Clinic",
    .addLine "b" "a" ⟨"c", "C", "Gauze"⟩ (.stockIn ⟨none, none, 1, .zero⟩ .zero)]

/-- Both questions of the update are answered before the shipment is verified. -/
def checked : List Turn :=
  [.begin (.update [⟨"b", "a", ⟨0x3ff0000000000000⟩⟩]), .advance 0, .advance 0,
    .setStatus "a" .verified]

def row : LineRow :=
  .written ⟨"b", "a", ⟨"c", "C", "Gauze"⟩, .stockIn ⟨none, none, 1, .zero⟩ .zero⟩

/-- The count is stored after the shipment was verified. -/
theorem not_keepsLocked_overtaking :
    ¬KeepsLocked (empty.writeAll writes) (checked ++ [.advance 0]) := by
  intro keeps
  have locked : IsLocked (run (empty.writeAll writes) checked).database row :=
    ⟨"a", ⟨"a", 1, .inbound, .verified, "Clinic", false, .epoch⟩, rfl, by decide +kernel,
      by decide⟩
  have kept := keeps checked 0 [] rfl row (by decide +kernel) locked
  revert kept
  decide +kernel

end Overtaking

end Service

end Depot
