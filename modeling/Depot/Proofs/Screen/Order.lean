import Depot.Proofs.Cache.Changes
import Depot.Proofs.Edit.Course
import Depot.Proofs.Screen.Selected
import Mathlib.Data.List.Forall2
import Mathlib.Data.List.Permutation

/-!
Contract: the order in which lines are shown has no say in a deletion.

A deletion is read off the view: lines are sorted, perhaps gathered, and those that are ticked
are taken. Another order gives the same lines in another order. Checks, counts and the list
that is shown meanwhile do not look at it, so only the targets are sent in another order.

Owns: two deletions that differ in the order of their rows, and what a screen shows and
deletes in any order.
Does not own: which lines are selected (`Depot.Proofs.Screen.Selected`).
-/

namespace Depot

variable {ρ σ : Type}

/-! ### Deletions of the same rows -/

/-- Questions that differ at most in the order of their targets. -/
inductive Ask.SameUpToOrder : Ask ρ → Ask ρ → Prop
  | same (ask : Ask ρ) : SameUpToOrder ask ask
  | remove {targets others : List Target} (reordered : targets.Perm others) :
      SameUpToOrder (.remove targets) (.remove others)

/-- Whether a deletion succeeds does not depend on the order of the targets. -/
def World.IgnoresOrder (world : World σ ρ) : Prop :=
  ∀ (state : σ) (desk : Desk ρ) (targets others : List Target), targets.Perm others →
    world.grants state desk (.remove targets) = world.grants state desk (.remove others)

/-- Courses that differ at most in the order of the targets that are sent, and in what
happens after the reply to them. -/
structure Course.SameUpToOrder (left right : Course ρ) : Prop where
  finding : left.finding = right.finding
  told : left.told = right.told
  asked : List.Forall₂ Ask.SameUpToOrder (left.questions.map Question.ask)
    (right.questions.map Question.ask)
  /-- The cache is the same when the targets are sent. -/
  shown : (left.questions.map Question.cache).head? = (right.questions.map Question.cache).head?
  declined : left.questions = [] → left.desk = right.desk

theorem Course.SameUpToOrder.refl (course : Course ρ) : course.SameUpToOrder course where
  finding := rfl
  told := rfl
  asked := List.forall₂_same.mpr fun ask _ => .same ask
  shown := rfl
  declined := fun _ => rfl

/-- Deletions of the same rows, perhaps in another order. -/
structure Removal.Reorders [Row ρ] (request other : Removal ρ) : Prop where
  key : request.key = other.key
  disabled : request.disabled = other.disabled
  eligibility : request.eligibility = other.eligibility
  subject : request.subject = other.subject
  rows : request.rows.Perm other.rows

/-- Rows are dropped by their ids, in whatever order these are given. -/
theorem Rows.without_eq_of_perm [Row ρ] {ids others : List String} (reordered : ids.Perm others) :
    (Rows.without ids : List ρ → List ρ) = Rows.without others :=
  Rows.without_congr fun _ => reordered.mem_iff

/-- Targets in another order make no difference to what is shown, told and found. -/
theorem Desk.follow_begin_reordered {world : World σ ρ} (ignores : world.IgnoresOrder) (state : σ)
    (desk : Desk ρ) (key : ListKey) (change : List ρ → List ρ) {targets others : List Target}
    (reordered : targets.Perm others) (success : Notice) (count : Nat) :
    (desk.follow world state
        (desk.begin key change (.remove targets) success count)).SameUpToOrder
      (desk.follow world state (desk.begin key change (.remove others) success count)) := by
  have granted := ignores state (desk.showing key change) targets others reordered
  obtain ⟨settle, last, refetched, course⟩ :=
    follow_begin_eq world state desk key change (.remove targets) success count
  obtain ⟨settleOther, lastOther, refetchedOther, courseOther⟩ :=
    follow_begin_eq world state desk key change (.remove others) success count
  have fetched : Ask.SameUpToOrder settle.ask settleOther.ask := by
    rw [refetched, refetchedOther]
    exact .same (.fetch key)
  rw [course, courseOther, granted]
  refine ⟨rfl, rfl, ?_, rfl, ?_⟩
  · exact .cons (.remove reordered) (.cons fetched .nil)
  · intro none
    exact absurd none (List.cons_ne_nil _ _)

theorem Desk.follow_remove_reordered [Row ρ] {world : World σ ρ} (ignores : world.IgnoresOrder)
    (state : σ) (desk : Desk ρ) {request other : Removal ρ} (reorders : request.Reorders other) :
    (desk.follow world state (desk.remove request)).SameUpToOrder
      (desk.follow world state (desk.remove other)) := by
  obtain ⟨key, disabled, eligibility, subject, rows⟩ := reorders
  cases request.standing with
  | disabled locked =>
      rw [remove_disabled locked, remove_disabled (disabled.symm.trans locked)]
      exact .refl _
  | nothing enabled none =>
      have noneOther : other.rows = [] := List.perm_nil.mp (none ▸ rows.symm)
      rw [remove_nothing enabled none, remove_nothing (disabled.symm.trans enabled) noneOther]
      exact .refl _
  | barred enabled barred =>
      have barredOther : ∃ row ∈ other.rows, ¬other.eligibility.allows row := by
        obtain ⟨row, member, refused⟩ := barred
        exact ⟨row, rows.mem_iff.mp member, eligibility ▸ refused⟩
      rw [remove_barred enabled barred, remove_barred (disabled.symm.trans enabled) barredOther,
        ← subject, ← eligibility]
      exact .refl _
  | admitted enabled some allowed =>
      have someOther : other.rows ≠ [] :=
        fun noneOther => some (List.perm_nil.mp (noneOther ▸ rows))
      have allowedOther : ∀ row ∈ other.rows, other.eligibility.allows row := by
        intro row member
        rw [← eligibility]
        exact allowed row (rows.mem_iff.mpr member)
      have dropped : (Rows.without (request.rows.map Row.id) : List ρ → List ρ) =
          Rows.without (other.rows.map Row.id) :=
        Rows.without_eq_of_perm (rows.map _)
      rw [remove_admitted enabled some allowed,
        remove_admitted (disabled.symm.trans enabled) someOther allowedOther,
        ← key, ← subject, ← rows.length_eq, ← dropped]
      exact desk.follow_begin_reordered ignores state _ _ (rows.map _) _ _

/-! ### Deletions on the screen of a shipment -/

namespace ShipmentScreen

/-- The lines that are ticked, by themselves or by their items. -/
def tickedLines (screen : ShipmentScreen) (rows : List Line) : List Line :=
  rows.filter fun line => screen.selection.isSelected (screen.tickKey line)

/-- The course of a deletion of the selected lines. -/
def delete (screen : ShipmentScreen) (world : World σ Line) (state : σ) (desk : Desk Line) :
    Course Line :=
  desk.follow world state (desk.remove (screen.removal desk.cache))

theorem rows_removal_perm (screen : ShipmentScreen) (cache : Cache Line) :
    (screen.removal cache).rows.Perm (screen.tickedLines (screen.cached cache)) :=
  screen.selectedRows_perm (screen.cached cache) screen.selection

/-- A deletion that is not turned down sends the ticked lines, each as often as it is cached,
and shows the list without them meanwhile. -/
def SendsTicked (screen : ShipmentScreen) (course : Course Line) (cache : Cache Line) : Prop :=
  screen.isDisabled = false → screen.tickedLines (screen.cached cache) ≠ [] →
    (∀ line ∈ screen.tickedLines (screen.cached cache), screen.eligibility.allows line) →
    ∃ write settle targets, course.questions = [write, settle] ∧ write.ask = .remove targets ∧
      targets.Perm ((screen.tickedLines (screen.cached cache)).map Row.target) ∧
      write.cache.get? screen.key = (cache.get? screen.key).map
        (Rows.without ((screen.tickedLines (screen.cached cache)).map Row.id))

/-- A list that is there and not stale is shown without asking the source: all of its lines,
and in the groups that are ticked the ticked lines. -/
def ShowsTicked (screen : ShipmentScreen) (desk : Desk Line) : Prop :=
  desk.cache.isStale? screen.key = some false →
    ∃ rows, desk.cache.get? screen.key = some rows ∧
      desk.startEnsure screen.key = (desk, .finished (.rows (.ok rows))) ∧
      (screen.lines rows).Perm rows ∧
      ((screen.groups rows).flatMap ItemGroup.lines).Perm rows ∧
      (screen.grouped = true →
        (((screen.groups rows).filter fun group =>
            screen.selection.isSelected group.item.id).flatMap ItemGroup.lines).Perm
          (screen.tickedLines rows))

theorem sendsTicked_delete (screen : ShipmentScreen) (world : World σ Line) (state : σ)
    (desk : Desk Line) :
    screen.SendsTicked (screen.delete world state desk) desk.cache := by
  intro enabled some allowed
  have ticked := screen.rows_removal_perm desk.cache
  have selected : (screen.removal desk.cache).rows ≠ [] :=
    fun none => some (List.perm_nil.mp (none ▸ ticked.symm))
  have dropped : (Rows.without ((screen.removal desk.cache).rows.map Row.id) : List Line → _) =
      Rows.without ((screen.tickedLines (screen.cached desk.cache)).map Row.id) :=
    Rows.without_eq_of_perm (ticked.map _)
  have deletes := desk.follow_remove world state (screen.removal desk.cache)
  obtain ⟨write, settle, carried⟩ := deletes.carried enabled selected
    fun line member => allowed line (ticked.mem_iff.mp member)
  refine ⟨write, settle, _, carried.questions, carried.sent, ticked.map Row.target, ?_⟩
  rw [← dropped]
  exact (Rows.rel_iff_eq_map Rows.eq_without_iff).mp carried.shown

theorem showsTicked (screen : ShipmentScreen) (desk : Desk Line) : screen.ShowsTicked desk := by
  intro fresh
  obtain ⟨rows, found⟩ := desk.cache.exists_fresh screen.key fresh
  refine ⟨rows, ((desk.cache.fresh?_eq_some screen.key).mp found).1, ?_, ?_, ?_, ?_⟩
  · simp only [Desk.startEnsure, found]
  · exact screen.sorting.sortLines_perm rows
  · exact screen.groups_perm rows
  · intro grouped
    have picked := screen.pickedGroups_perm rows screen.selection.isSelected
    simpa only [tickedLines, tickKey, grouped, ↓reduceIte] using picked

/-- In any other order of the screen a deletion sends the same targets, shows the same list
meanwhile, tells the same and comes to the same. What it sends are the ticked lines, which are
those that the screen shows as ticked. -/
theorem delete_withSorting {world : World σ Line} (ignores : world.IgnoresOrder) (state : σ)
    (desk : Desk Line) (screen : ShipmentScreen) (sorting : Sorting) :
    (screen.delete world state desk).SameUpToOrder
        ((screen.withSorting sorting).delete world state desk) ∧
      screen.SendsTicked (screen.delete world state desk) desk.cache ∧
      screen.ShowsTicked desk := by
  refine ⟨?_, screen.sendsTicked_delete world state desk, screen.showsTicked desk⟩
  apply desk.follow_remove_reordered ignores state
  refine ⟨rfl, rfl, rfl, rfl, ?_⟩
  have ticked := screen.rows_removal_perm desk.cache
  exact ticked.trans ((screen.withSorting sorting).rows_removal_perm desk.cache).symm

/-! ### An item in two pack sizes -/

namespace TwoSizes

def line (id itemId : String) (packSize : UInt32) : Line :=
  ⟨id, "s", ⟨itemId, "C", "Gauze"⟩, .stockIn ⟨none, none, packSize, .zero⟩ .zero⟩

/-- The larger packs of one item come before the smaller ones, with another item in between. -/
def rows : List Line := [line "a" "c" 20, line "b" "d" 5, line "e" "c" 10]

/-- The screen by item, with the first item ticked. -/
def screen : ShipmentScreen :=
  { ShipmentScreen.opened ⟨"s", 1, .inbound, .new, "Clinic", false, .epoch⟩ with
    grouped := true
    selection := Selection.empty.select "c" }

def bySize : Sorting := ⟨.packSize, false⟩

def desk : Desk Line := ⟨Cache.empty.set screen.key rows, []⟩

/-- A source that does what it is asked, with nobody else at the desk. -/
def world : World Unit Line :=
  .quiet fun state ask => (state, match ask with
    | .fetch _ => .ok [line "b" "d" 5]
    | .remove targets => .ok targets.length
    | .update rows => .ok rows.length)

/-- By name and by pack size the two lines are sent in different orders, and the same is
told. -/
theorem delete_twoSizes :
    ((screen.removal desk.cache).rows.map Line.id = ["a", "e"] ∧
        ((screen.withSorting bySize).removal desk.cache).rows.map Line.id = ["e", "a"]) ∧
      (screen.delete world () desk).told =
        ((screen.withSorting bySize).delete world () desk).told := by
  have ignores : world.IgnoresOrder := by
    intro state desk targets others reordered
    rfl
  refine ⟨⟨?_, ?_⟩, ?_⟩
  · cbv
  · cbv
  · exact (delete_withSorting ignores () desk screen bySize).1.told

end TwoSizes

end ShipmentScreen

end Depot
