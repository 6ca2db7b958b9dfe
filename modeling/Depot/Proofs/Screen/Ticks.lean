import Depot.Proofs.Edit.Course
import Depot.Rehearsal.Basic
import Depot.Screen.Basic
import Depot.Screen.Shipment
import Mathlib.Data.List.Permutation

/-!
Contract: what stays ticked on a screen when an edit of it has ended.

While a deletion waits for the source, others may change the list. When it was committed the
screen of a shipment keeps the ticks of the lines, or of the items, that are cached at that
moment, and a list of records keeps none. Any other outcome, and the storing of pack counts,
leaves the ticks alone. So do the calls that go on beside them: a screen is changed by the end
of its own deletion and by its user, who has to wait for it.

Owns: the ticks after an edit, and the screens that calls leave alone.
Does not own: the course of an edit (`Depot.Proofs.Edit.Course`).
-/

namespace Depot

variable {ρ σ ς β : Type}

/-! ### Outcomes -/

namespace Desk

variable [Row ρ] (world : World σ ρ) (state : σ) (desk : Desk ρ)

/-- Every deletion ends with an outcome. -/
theorem finding_remove (request : Removal ρ) :
    ∃ outcome, (desk.follow world state (desk.remove request)).finding = .outcome outcome := by
  have deletes := desk.follow_remove world state request
  cases request.standing with
  | disabled disabled => exact ⟨_, (deletes.disabled disabled).finding⟩
  | nothing enabled none => exact ⟨_, (deletes.nothing enabled none).finding⟩
  | barred enabled barred => exact ⟨_, (deletes.barred enabled barred).finding⟩
  | admitted enabled some allowed =>
      obtain ⟨write, settle, carried⟩ := deletes.carried enabled some allowed
      exact ⟨_, carried.finding⟩

/-- Every update ends with an outcome. -/
theorem finding_update (request : Update ρ) :
    ∃ outcome, (desk.follow world state (desk.update request)).finding = .outcome outcome := by
  have saves := desk.follow_update world state request
  cases locked : request.disabled with
  | true => exact ⟨_, (saves.disabled locked).finding⟩
  | false =>
      by_cases none : request.rows = []
      · exact ⟨_, (saves.nothing locked none).finding⟩
      · obtain ⟨write, settle, carried⟩ := saves.carried locked none
        exact ⟨_, carried.finding⟩

end Desk

/-! ### Screens beside the calls that go on -/

namespace Rehearsal

/-- One screen is another one now, and every other screen is as it was. -/
structure Shows (after before : Rehearsal ρ ς β) (name : String) (screen : ς) : Prop where
  here : after.screens.get? name = some screen
  elsewhere : ∀ other, other ≠ name → after.screens.get? other = before.screens.get? other

variable [Screen ς ρ] (rehearsal : Rehearsal ρ ς β)

/-- The end of a deletion changes its screen by the cache as it is then. -/
theorem shows_conclude {name : String} {screen : ς}
    (here : rehearsal.screens.get? name = some screen) (outcome : Outcome) :
    (rehearsal.conclude (.deletion name) [.outcome outcome]).Shows rehearsal name
      (Screen.afterRemoval screen rehearsal.cache outcome) := by
  simp only [conclude, here]
  refine ⟨by simp, ?_⟩
  intro other differs
  simp [differs]

/-- A call changes no screen but the one that it deletes on. -/
theorem screen_conclude {holder : Holder} {name : String} (beside : holder ≠ .deletion name)
    (findings : List (Finding ρ)) :
    (rehearsal.conclude holder findings).screens.get? name = rehearsal.screens.get? name := by
  unfold conclude
  split
  next => rfl
  next other outcome =>
    have differs : name ≠ other := fun same => beside (congrArg Holder.deletion same.symm)
    split
    next => rfl
    next => simp [differs]
  next => rfl

theorem screen_enter {task : Task ρ β} {name : String} (beside : task.holder ≠ .deletion name) :
    (rehearsal.enter task).1.screens.get? name = rehearsal.screens.get? name := by
  unfold enter
  split
  next => exact rehearsal.screen_conclude beside _
  next => rfl

theorem screen_goOn [Row ρ] {tasks : List (Task ρ β)} {name : String}
    (beside : ∀ task ∈ tasks, task.holder ≠ .deletion name) :
    (rehearsal.goOn tasks).1.screens.get? name = rehearsal.screens.get? name := by
  induction tasks generalizing rehearsal with
  | nil => rfl
  | cons task tasks inductionHypothesis =>
      have later : ∀ other ∈ tasks, other.holder ≠ .deletion name :=
        fun other member => beside other (List.mem_cons_of_mem task member)
      rw [goOn]
      refine (inductionHypothesis _ later).trans ?_
      exact screen_enter _ (beside task List.mem_cons_self)

end Rehearsal

/-! ### Ticks -/

/-- What the outcome of a deletion makes of its screen: nothing, unless it was committed, and
then only the ticks are others. -/
structure Screen.Settles [Screen ς ρ] (screen after : ς) (outcome : Outcome)
    (kept : Selection → Prop) : Prop where
  committed : ∀ count, outcome = .committed count → kept (selection after)
  otherwise : (∀ count, outcome ≠ .committed count) → after = screen
  rest : after = withSelection screen (selection after)

/-- The ticks, as they were, of the lines or items that are cached. -/
structure ShipmentScreen.KeepsCached (screen : ShipmentScreen) (cache : Cache Line)
    (ticks : Selection) : Prop where
  cached : ∀ rows, cache.get? screen.key = some rows → ∀ key,
    ticks.tick? key =
      if key ∈ rows.map screen.tickKey then screen.selection.tick? key else none
  gone : cache.get? screen.key = none → ticks = .empty

/-- A deletion has ended on a screen: it had an outcome, which settles what the screen is now,
and no other screen has changed. -/
def Rehearsal.Settles [Screen ς ρ] (ending : Rehearsal ρ ς β) (name : String) (screen : ς)
    (course : Course ρ) (kept : Selection → Prop) : Prop :=
  ∃ outcome after, course.finding = .outcome outcome ∧
    (ending.conclude (.deletion name) [course.finding]).Shows ending name after ∧
    Screen.Settles screen after outcome kept

theorem Screen.settles_afterRemoval [Screen ς ρ] {screen : ς} {cache : Cache ρ}
    {kept : Selection → Prop} (keeps : kept (keptSelection screen cache))
    (read : ∀ ticks, selection (withSelection screen ticks) = ticks)
    (written : withSelection screen (selection screen) = screen) (outcome : Outcome) :
    Settles screen (afterRemoval screen cache outcome) outcome kept := by
  cases outcome with
  | committed count =>
      refine ⟨?_, ?_, ?_⟩
      · intro count same
        rw [afterRemoval, read]
        exact keeps
      · intro other
        exact absurd rfl (other count)
      · rw [afterRemoval, read]
  | skipped notice => exact ⟨by simp, fun _ => rfl, written.symm⟩
  | rejected notice => exact ⟨by simp, fun _ => rfl, written.symm⟩
  | rolledBack => exact ⟨by simp, fun _ => rfl, written.symm⟩

theorem ShipmentScreen.keepsCached (screen : ShipmentScreen) (cache : Cache Line) :
    screen.KeepsCached cache (screen.keptSelection cache) where
  cached := by
    intro rows cached key
    simp only [keptSelection, cached, Selection.tick?_retain]
  gone := by
    intro gone
    simp only [keptSelection, gone]

theorem Rehearsal.settles_remove [Row ρ] [Screen ς ρ] (world : World σ ρ) (state : σ)
    (desk : Desk ρ) (request : Removal ρ) {ending : Rehearsal ρ ς β} {name : String} {screen : ς}
    (here : ending.screens.get? name = some screen) {kept : Selection → Prop}
    (settles : ∀ outcome,
      Screen.Settles screen (Screen.afterRemoval screen ending.cache outcome) outcome kept) :
    ending.Settles name screen (desk.follow world state (desk.remove request)) kept := by
  obtain ⟨outcome, finding⟩ := desk.finding_remove world state request
  refine ⟨outcome, _, finding, ?_, settles outcome⟩
  rw [finding]
  exact ending.shows_conclude here outcome

/-- Whatever comes in between, a committed deletion leaves on the screen of a shipment the ticks
of what is cached at its end, and on a list of records none. Every other outcome and every
storing of pack counts leaves the screen as it was. The rows are read off the cache as it is
`seen` at first, and `ending` is where the rehearsal has come to when the edit has ended. -/
theorem Rehearsal.ticks_after_edit :
    (∀ (world : World σ Line) (state : σ) (seen : Cache Line) (desk : Desk Line)
        (ending : Rehearsal Line ShipmentScreen β) (name : String) (screen : ShipmentScreen),
        ending.screens.get? name = some screen →
        ending.Settles name screen (desk.follow world state (desk.remove (screen.removal seen)))
          (screen.KeepsCached ending.cache)) ∧
      (∀ {ρ : Type} [Row ρ] (world : World σ ρ) (state : σ) (seen : Cache ρ) (desk : Desk ρ)
        (ending : Rehearsal ρ (ListScreen ρ) β) (name : String) (screen : ListScreen ρ),
        ending.screens.get? name = some screen →
        ending.Settles name screen (desk.follow world state (desk.remove (screen.removal seen)))
          (· = .empty)) ∧
      (∀ (world : World σ Line) (state : σ) (seen : Cache Line) (desk : Desk Line)
        (changes : List (String × Decimal.Binary64)) (ending : Rehearsal Line ShipmentScreen β)
        (name : String) (screen : ShipmentScreen), ending.screens.get? name = some screen →
        ∃ outcome,
          (desk.follow world state (desk.update (screen.packUpdate changes seen))).finding =
            .outcome outcome ∧
          (ending.conclude (.screen name) [.outcome outcome]).Shows ending name screen) ∧
      ∀ {ρ ς : Type} [Row ρ] [Screen ς ρ] (rehearsal : Rehearsal ρ ς β) (name : String),
        (∀ task ∈ rehearsal.tasks, task.holder ≠ .deletion name) →
        rehearsal.pollAll.1.screens.get? name = rehearsal.screens.get? name := by
  refine ⟨?_, ?_, ?_, ?_⟩
  · intro world state seen desk ending name screen here
    apply settles_remove world state desk _ here
    exact Screen.settles_afterRemoval (screen.keepsCached ending.cache) (fun _ => rfl) rfl
  · intro ρ _ world state seen desk ending name screen here
    apply settles_remove world state desk _ here
    exact Screen.settles_afterRemoval rfl (fun _ => rfl) rfl
  · intro world state seen desk changes ending name screen here
    obtain ⟨outcome, finding⟩ := desk.finding_update world state (screen.packUpdate changes seen)
    exact ⟨outcome, finding, here, fun _ _ => rfl⟩
  · intro ρ ς _ _ rehearsal name beside
    exact screen_goOn { rehearsal with tasks := [] } beside

/-! ### A tick of a line that others removed -/

namespace Tidying

def line (id : String) : Line :=
  ⟨id, "s", ⟨id, "C", "Gauze"⟩, .stockIn ⟨none, none, 1, .zero⟩ .zero⟩

/-- One line is ticked, one was and is no more, and one is ticked that is not cached. -/
def screen : ShipmentScreen :=
  { ShipmentScreen.opened ⟨"s", 1, .inbound, .new, "Clinic", false, .epoch⟩ with
    selection := (((Selection.empty.select "a").select "b").select "c").deselect "b" }

def desk : Desk Line := ⟨Cache.empty.set screen.key [line "a", line "b"], []⟩

/-- A source that does what it is asked, with nobody else at the desk. -/
def world : World Unit Line :=
  .quiet fun state ask => (state, match ask with
    | .fetch _ => .ok [line "b"]
    | .remove targets => .ok targets.length
    | .update rows => .ok rows.length)

def course : Course Line :=
  desk.follow world () (desk.remove (screen.removal desk.cache))

/-- The desk as the deletion leaves it, with the screen as it was. -/
def ending : Rehearsal Line ShipmentScreen Unit :=
  ⟨⟨course.desk, .empty⟩, Keyed.empty, Keyed.empty.put "s" screen, []⟩

/-- Of the three ticks only that of the line that is still cached stays, and it stays off. -/
theorem ticks_tidied :
    course.finding = .outcome (.committed 1) ∧
      ∃ after, (ending.conclude (.deletion "s") [course.finding]).screens.get? "s" = some after ∧
        ["a", "b", "c"].map after.selection.tick? = [none, some false, none] := by
  have committed : course.finding = .outcome (.committed 1) := by cbv
  have cached : ending.cache.get? screen.key = some [line "b"] := by cbv
  refine ⟨committed, ?_⟩
  obtain ⟨outcome, after, finding, shows, settles⟩ :=
    Rehearsal.ticks_after_edit.1 world () desk.cache desk ending "s" screen (by cbv)
  have same : outcome = .committed 1 := Finding.outcome.inj (finding.symm.trans committed)
  have kept : after.selection.tick? = fun key =>
      if key ∈ [line "b"].map screen.tickKey then screen.selection.tick? key else none :=
    funext ((settles.committed 1 same).cached _ cached)
  refine ⟨after, shows.here, ?_⟩
  rw [kept]
  decide

end Tidying

end Depot
