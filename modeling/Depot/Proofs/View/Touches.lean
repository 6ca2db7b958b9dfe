import Depot.Proofs.Text.Bytes
import Depot.View.Selection
import Mathlib.Data.List.DropRight
import Mathlib.Data.List.Induction
import Mathlib.Data.List.Sort

/-!
Contract: what a selection holds of a key is what was done to the key.

A change of a selection touches the keys that it names. Clearing forgets all keys, and retaining
forgets those that are not present. Whatever came before, a key is ticked if the touches since it
was last forgotten leave it so, and it is known if one of them was more than an untick. Keys that
a change neither names nor forgets are as they were. The ticked keys are listed by their bytes,
each once.

Owns: changes, the touches of a key, and the list of ticked keys.
Does not own: the rows that ticked keys stand for (`Depot.Proofs.Screen.Selected`), and the
changes that a screen makes (`Depot.Proofs.Screen.Ticks`).
-/

namespace Depot.Selection

/-! ### Changes -/

inductive Change where
  | toggle (key : String)
  | select (key : String)
  | deselect (key : String)
  | selectAll (keys : List String)
  | clear
  | retain (present : List String)

def step (selection : Selection) : Change → Selection
  | .toggle key => selection.toggle key
  | .select key => selection.select key
  | .deselect key => selection.deselect key
  | .selectAll keys => selection.selectAll keys
  | .clear => empty
  | .retain present => selection.retain present

def run (selection : Selection) (changes : List Change) : Selection :=
  changes.foldl step selection

/-- What a change does to a key that it names. -/
inductive Touch where
  | flip
  | tick
  | untick
deriving DecidableEq

namespace Touch

def leaves (ticked : Bool) : Touch → Bool
  | .flip => !ticked
  | .tick => true
  | .untick => false

/-- What is known of a key after the touch. Nothing is known of an unknown key that is unticked. -/
def on (known : Option Bool) : Touch → Option Bool
  | .untick => known.map fun _ => false
  | touch => some (touch.leaves (known.getD false))

end Touch

namespace Change

def touch? (key : String) : Change → Option Touch
  | .toggle named => if key = named then some .flip else none
  | .select named => if key = named then some .tick else none
  | .deselect named => if key = named then some .untick else none
  | .selectAll named => if key ∈ named then some .tick else none
  | .clear => none
  | .retain _ => none

/-- Whether nothing is known of the key afterwards, whatever was known before. -/
def forgets (key : String) : Change → Bool
  | .clear => true
  | .retain present => decide (key ∉ present)
  | _ => false

/-- The change neither names the key nor forgets it. -/
structure Spares (key : String) (change : Change) : Prop where
  unnamed : change.touch? key = none
  kept : change.forgets key = false

end Change

/-- The touches of the key since it was last forgotten, the oldest first. -/
def touches (key : String) (changes : List Change) : List Touch :=
  (changes.rtakeWhile fun change => !change.forgets key).filterMap (Change.touch? key)

/-- Whether touches leave a key ticked that was not ticked at first. -/
def leavesTicked (touches : List Touch) : Bool :=
  touches.foldl Touch.leaves false

/-! ### One change -/

/-- What a change does to a key hangs on nothing but what was known of that key. -/
theorem tick?_step (selection : Selection) (change : Change) (key : String) :
    (selection.step change).tick? key =
      if change.forgets key then none
      else match change.touch? key with
        | none => selection.tick? key
        | some touch => touch.on (selection.tick? key) := by
  cases change with
  | toggle named =>
      simp only [step, Change.forgets, Change.touch?, tick?_toggle]
      split <;> rfl
  | select named =>
      simp only [step, Change.forgets, Change.touch?, tick?_select]
      split <;> rfl
  | deselect named =>
      simp only [step, Change.forgets, Change.touch?, tick?_deselect]
      split <;> rfl
  | selectAll named =>
      simp only [step, Change.forgets, Change.touch?, tick?_selectAll]
      split <;> rfl
  | clear => exact tick?_empty key
  | retain present => simp [step, Change.forgets, Change.touch?]

theorem tick?_step_of_spares (selection : Selection) {change : Change} {key : String}
    (spares : change.Spares key) :
    (selection.step change).tick? key = selection.tick? key := by
  rw [tick?_step, spares.kept, spares.unnamed]
  rfl

/-! ### Runs of changes -/

/-- What is known of a key is what its touches tell. -/
structure Told (known : Option Bool) (touches : List Touch) : Prop where
  ticked : known.getD false = leavesTicked touches
  unknown : known = none ↔ .flip ∉ touches ∧ .tick ∉ touches

theorem told_nil : Told none [] where
  ticked := rfl
  unknown := by simp

theorem Told.touched {known : Option Bool} {touches : List Touch} (told : Told known touches)
    (touch : Touch) : Told (touch.on known) (touches ++ [touch]) where
  ticked := by
    have last : leavesTicked (touches ++ [touch]) = touch.leaves (leavesTicked touches) :=
      List.foldl_concat ..
    rw [last, ← told.ticked]
    cases touch with
    | flip => rfl
    | tick => rfl
    | untick => cases known <;> rfl
  unknown := by
    cases touch with
    | flip => simp [Touch.on]
    | tick => simp [Touch.on]
    | untick => simp [Touch.on, told.unknown]

theorem touches_append_singleton (key : String) (changes : List Change) (change : Change) :
    touches key (changes ++ [change]) =
      if change.forgets key then []
      else touches key changes ++ (change.touch? key).toList := by
  rw [touches, List.rtakeWhile_concat]
  cases forgets : change.forgets key with
  | true => rfl
  | false =>
      simp only [Bool.not_false, ↓reduceIte, List.filterMap_append, Bool.false_eq_true]
      cases touched : change.touch? key with
      | none => simp [touches, touched]
      | some touch => simp [touches, touched]

theorem told_run (changes : List Change) (key : String) :
    Told ((empty.run changes).tick? key) (touches key changes) := by
  induction changes using List.reverseRecOn with
  | nil => exact told_nil
  | append_singleton changes change inductionHypothesis =>
      -- The last change forgets the key, and then its touches start anew, or adds one at most.
      have last : empty.run (changes ++ [change]) = (empty.run changes).step change :=
        List.foldl_concat ..
      rw [last, tick?_step, touches_append_singleton]
      cases change.forgets key with
      | true => exact told_nil
      | false =>
          cases change.touch? key with
          | none => simpa using inductionHypothesis
          | some touch => exact inductionHypothesis.touched touch

/-! ### The list of ticked keys -/

/-- The ticked keys as they are listed and counted. -/
structure ListsTicked (selection : Selection) : Prop where
  increasing :
    selection.selectedKeys.Pairwise fun left right => Text.bytes left < Text.bytes right
  listed : ∀ key, key ∈ selection.selectedKeys ↔ selection.isSelected key = true
  counted : selection.selectedCount = selection.selectedKeys.length

theorem selectedKeys_perm (selection : Selection) :
    selection.selectedKeys.Perm (selection.ticks.keys.filter selection.isSelected) :=
  List.mergeSort_perm _ _

theorem mem_selectedKeys (selection : Selection) (key : String) :
    key ∈ selection.selectedKeys ↔ selection.isSelected key = true := by
  rw [selection.selectedKeys_perm.mem_iff, List.mem_filter, Keyed.mem_keys]
  refine ⟨And.right, fun ticked => ⟨?_, ticked⟩⟩
  change (selection.tick? key).isSome
  cases known : selection.tick? key with
  | none => simp [isSelected, known] at ticked
  | some _ => rfl

theorem sortedLT_selectedKeys (selection : Selection) : selection.selectedKeys.SortedLT := by
  have sorted : selection.selectedKeys.SortedLE := List.sortedLE_mergeSort
  have distinct : selection.selectedKeys.Nodup :=
    selection.selectedKeys_perm.nodup_iff.mpr (selection.ticks.distinct.filter _)
  exact sorted.sortedLT_of_nodup distinct

theorem listsTicked (selection : Selection) : selection.ListsTicked where
  increasing := selection.sortedLT_selectedKeys.pairwise.imp (Text.bytes_lt_bytes_iff _ _).mpr
  listed := selection.mem_selectedKeys
  counted := by
    rw [selection.selectedKeys_perm.length_eq, selectedCount, List.countP_eq_length_filter]

/-! ### What is held of each key -/

/-- A selection holds what a run of changes has done to each key. -/
structure Holds (selection : Selection) (changes : List Change) : Prop where
  ticked : ∀ key, selection.isSelected key = true ↔ leavesTicked (touches key changes) = true
  unknown : ∀ key, selection.tick? key = none ↔
    .flip ∉ touches key changes ∧ .tick ∉ touches key changes

/-- After every run of changes each key is as its touches since it was last forgotten have left
it. Every selection lists the keys that are ticked, and a change leaves alone what it spares. -/
theorem holdsTouches :
    (∀ changes : List Change, (empty.run changes).Holds changes) ∧
      (∀ selection : Selection, selection.ListsTicked) ∧
      ∀ (selection : Selection) (change : Change) (key : String), change.Spares key →
        (selection.step change).tick? key = selection.tick? key := by
  refine ⟨?_, listsTicked, ?_⟩
  · intro changes
    constructor
    · intro key
      rw [← (told_run changes key).ticked]
      rfl
    · intro key
      exact (told_run changes key).unknown
  · intro selection change key spares
    exact selection.tick?_step_of_spares spares

/-! ### Ticks that come back after they were forgotten -/

namespace Retouched

/-- One key is unticked and kept, one is forgotten and only unticked afterwards, and one is
forgotten and then flipped. -/
def changes : List Change :=
  [.selectAll ["a", "b", "c"], .deselect "a", .retain ["a"], .deselect "b", .toggle "c"]

theorem spared : (Change.retain ["a", "c"]).Spares "c" where
  unnamed := rfl
  kept := rfl

theorem holdsTouches_retouched :
    ["a", "b", "c"].map (empty.run changes).tick? = [some false, none, some true] ∧
      (∀ key, key ∈ (empty.run changes).selectedKeys ↔
        leavesTicked (touches key changes) = true) ∧
      (Change.retain ["a", "c"]).Spares "c" ∧
      ((empty.run changes).step (.retain ["a", "c"])).tick? "c" = some true := by
  refine ⟨by decide, ?_, spared, ?_⟩
  · intro key
    exact ((holdsTouches.2.1 _).listed key).trans ((holdsTouches.1 changes).ticked key)
  · exact (holdsTouches.2.2 _ _ _ spared).trans (by decide)

end Retouched

end Depot.Selection
