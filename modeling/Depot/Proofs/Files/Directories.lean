import Depot.Files.Basic

/-!
Contract: directories that were made are there, and making them again changes nothing.

A directory is made only where nothing was, so every walk that could be made before can still
be made. What was made is found by the walk to it, and nothing more is made the second time.

Owns: directories that are made twice.
Does not own: whose directories they are (`Depot.Proofs.Database.Folders`).
-/

namespace Depot.Files

variable {α : Type} {files after : Files α} {place parent : Place} {steps : List String}
  {name : String}

/-! ### One directory -/

/-- What is known when a directory was made: where it is, and that nothing was there. -/
structure Made (files : Files α) (place : Place) (steps : List String) (name : String)
    (after : Files α) (parent : Place) : Prop where
  walked : files.walk place steps = .ok parent
  isStep : name ≠ "." ∧ name ≠ ".."
  absent : files.entries.has (parent ++ [name]) = false
  named : isName name = true
  result : after = { files with entries := files.entries.put (parent ++ [name]) .directory }

theorem exists_made (made : files.makeDirectory place steps name = .ok after) :
    ∃ parent, Made files place steps name after parent := by
  rw [makeDirectory] at made
  cases walked : files.walk place steps with
  | error trouble =>
      rw [walked] at made
      cases made
  | ok parent =>
      simp only [walked, bind, Except.bind, Bool.or_eq_true, decide_eq_true_eq] at made
      split at made
      next => cases made
      next free =>
        split at made
        next => cases made
        next named =>
          simp only [not_or, Bool.not_eq_true] at free
          cases made
          exact ⟨parent, walked, free.1, free.2, by simpa using named, rfl⟩

/-- A walk that could be made can be made when there is one more directory. -/
theorem walk_put {target added : Place} (absent : files.entries.has added = false) :
    files.walk place steps = .ok target →
      walk { files with entries := files.entries.put added .directory } place steps =
        .ok target := by
  fun_induction walk files place steps with
  | case1 place => exact id
  | case2 place steps inductionHypothesis => exact inductionHypothesis
  | case3 place steps inductionHypothesis => exact inductionHypothesis
  | case4 place name steps noDot noDots badName =>
      intro walked
      cases walked
  | case5 place name steps noDot noDots named missing =>
      intro walked
      cases walked
  | case6 place name steps noDot noDots named content taken =>
      intro walked
      cases walked
  | case7 place name steps noDot noDots named found inductionHypothesis =>
      intro walked
      have other : place ++ [name] ≠ added := by
        rintro rfl
        rw [Keyed.has, found] at absent
        cases absent
      rw [walk, if_neg named, Keyed.get?_put, if_neg other, found]
      · exact inductionHypothesis walked
      · exact noDot
      · exact noDots

theorem walk_append {middle : Place} {more : List String}
    (walked : files.walk place steps = .ok middle) :
    files.walk place (steps ++ more) = files.walk middle more := by
  fun_induction walk files place steps with
  | case1 place =>
      cases walked
      rfl
  | case2 place steps inductionHypothesis => exact inductionHypothesis walked
  | case3 place steps inductionHypothesis => exact inductionHypothesis walked
  | case4 place name steps noDot noDots badName => cases walked
  | case5 place name steps noDot noDots named missing => cases walked
  | case6 place name steps noDot noDots named content taken => cases walked
  | case7 place name steps noDot noDots named found inductionHypothesis =>
      rw [List.cons_append, walk, if_neg named, found]
      · exact inductionHypothesis walked
      · exact noDot
      · exact noDots

namespace Made

variable (made : Made files place steps name after parent)
include made

theorem home : after.home = files.home := by rw [made.result]

theorem found : after.entries.get? (parent ++ [name]) = some .directory := by
  rw [made.result, Keyed.get?_put, if_pos rfl]

theorem walked_after : after.walk place steps = .ok parent := by
  rw [made.result]
  exact walk_put made.absent made.walked

theorem leads : after.leadsToDirectory place (steps ++ [name]) = true := by
  rw [leadsToDirectory, walk_append made.walked_after, walk, made.named, made.found]
  · rfl
  · exact made.isStep.1
  · exact made.isStep.2

/-- The directory is there, so that it is not made once more. -/
theorem again : after.makeDirectory place steps name = .error .taken := by
  have taken : after.entries.has (parent ++ [name]) = true := by
    rw [Keyed.has, made.found]
    rfl
  simp only [makeDirectory, made.walked_after, bind, Except.bind, taken, Bool.or_true, if_true]

end Made

theorem ensureDirectory_again
    (ensured : files.ensureDirectory place steps name = (after, .ok ())) :
    after.ensureDirectory place steps name = (after, .ok ()) := by
  unfold ensureDirectory at ensured
  split at ensured
  next new made =>
    cases ensured
    obtain ⟨parent, made⟩ := exists_made made
    rw [ensureDirectory, made.again, made.leads]
    rfl
  next trouble stuck =>
    split at ensured
    next leads =>
      cases ensured
      rw [ensureDirectory, stuck, leads]
      rfl
    next => cases ensured

theorem home_ensureDirectory (files : Files α) (place : Place) (steps : List String)
    (name : String) : (files.ensureDirectory place steps name).1.home = files.home := by
  unfold ensureDirectory
  split
  next after made =>
    obtain ⟨parent, made⟩ := exists_made made
    exact made.home
  next =>
    split
    next => rfl
    next => rfl

/-! ### All directories on the way -/

theorem ensureSteps_again (ensured : files.ensureSteps place steps = (after, .ok ())) :
    after.ensureSteps place steps = (after, .ok ()) := by
  cases steps with
  | nil => rfl
  | cons name before =>
      -- Whatever had to be made before it, the last directory was ensured in the end.
      have last : after.ensureDirectory place before.reverse name = (after, .ok ()) := by
        rw [ensureSteps] at ensured
        split at ensured
        next missing =>
          split at ensured
          next between _ => exact ensureDirectory_again ensured
          next stuck => exact (stuck after ensured).elim
        next done other => exact ensureDirectory_again ensured
      rw [ensureSteps, last]

theorem home_ensureSteps (files : Files α) (place : Place) (steps : List String) :
    (files.ensureSteps place steps).1.home = files.home := by
  induction steps with
  | nil => rfl
  | cons name before inductionHypothesis =>
      rw [ensureSteps]
      split
      next =>
        split
        next between made =>
          rw [home_ensureDirectory, ← inductionHypothesis, made]
        next => exact inductionHypothesis
      next => exact home_ensureDirectory _ _ _ _

theorem ensurePath_again {text : List Char} (ensured : files.ensurePath text = (after, .ok ())) :
    after.ensurePath text = (after, .ok ()) := by
  rw [ensurePath] at ensured ⊢
  split at ensured
  next isPath =>
    have home : after.home = files.home := by
      rw [← home_ensureSteps files, ensured]
    have sameStart : after.start (Path.ofText text) = files.start (Path.ofText text) := by
      rw [start, start, home]
    rw [if_pos isPath, sameStart]
    exact ensureSteps_again ensured
  next => cases ensured

end Depot.Files
