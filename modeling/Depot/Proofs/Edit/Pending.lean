import Depot.Proofs.Cache.Changes
import Depot.Proofs.Edit.Course

/-!
Contract: deletions that wait for the source show one list, whatever order they were started in.

A deletion hides the ids of its rows from the list under its key, if it is not turned down.
Deletions that are started one after another hide the ids of all of them, and the order in which
ids are hidden has no say.

Owns: what pending deletions hide, and the laws of changes that this comes from.
Does not own: single changes of a list (`Depot.Proofs.Cache.Changes`).
-/

namespace Depot

variable {ρ : Type} [Row ρ]

/-- The ids that a deletion hides from the list under a key as soon as it is started. -/
def Removal.hides (request : Removal ρ) (key : ListKey) : List String :=
  if key = request.key ∧ request.disabled = false ∧ request.rows.all request.eligibility.allows
  then request.rows.map Row.id
  else []

namespace Desk

variable (desk : Desk ρ) (request : Removal ρ) (key : ListKey)

/-- The desk after a deletion was started. -/
def started : Desk ρ := (desk.remove request).1

/-- A list that is left alone has nothing hidden from it. -/
theorem get?_started_of_kept {desk : Desk ρ} {request : Removal ρ} {key : ListKey}
    (kept : (desk.started request).cache.get? key = desk.cache.get? key)
    (none : request.hides key = []) :
    (desk.started request).cache.get? key =
      (desk.cache.get? key).map (Rows.without (request.hides key)) := by
  rw [kept, none, Rows.without_nil, Option.map_id, id]

theorem get?_started :
    (desk.started request).cache.get? key =
      (desk.cache.get? key).map (Rows.without (request.hides key)) := by
  cases request.standing with
  | disabled disabled =>
      apply get?_started_of_kept
      · rw [started, remove_disabled disabled]
        rfl
      · simp [Removal.hides, disabled]
  | nothing enabled none =>
      apply get?_started_of_kept
      · rw [started, remove_nothing enabled none]
        rfl
      · simp [Removal.hides, none]
  | barred enabled barred =>
      apply get?_started_of_kept
      · rw [started, remove_barred enabled barred]
        rfl
      · obtain ⟨row, member, refused⟩ := barred
        exact if_neg fun hides => refused (List.all_eq_true.mp hides.2.2 row member)
  | admitted enabled some allowed =>
      by_cases here : key = request.key
      · have all : request.hides key = request.rows.map Row.id :=
          if_pos ⟨here, enabled, List.all_eq_true.mpr allowed⟩
        rw [started, remove_admitted enabled some allowed, begin_eq, all, here]
        exact desk.cache.get?_update ..
      · apply get?_started_of_kept
        · rw [started, remove_admitted enabled some allowed, begin_eq]
          exact congrArg (Option.map Entry.rows)
            (desk.cache.entries_update_other request.key key _ here)
        · exact if_neg fun hides => here hides.1

/-- Deletions that were started one after another hide the ids of all of them. -/
theorem get?_startedAll (requests : List (Removal ρ)) :
    (requests.foldl started desk).cache.get? key =
      (desk.cache.get? key).map (Rows.without (requests.flatMap (Removal.hides · key))) := by
  induction requests generalizing desk with
  | nil => rw [List.foldl_nil, List.flatMap_nil, Rows.without_nil, Option.map_id, id]
  | cons request requests inductionHypothesis =>
      rw [List.foldl_cons, inductionHypothesis, get?_started, Option.map_map, List.flatMap_cons]
      congr 1
      funext rows
      exact Rows.without_without _ _ rows

theorem get?_startedAll_of_perm {requests others : List (Removal ρ)}
    (reordered : requests.Perm others) :
    (requests.foldl started desk).cache.get? key =
      (others.foldl started desk).cache.get? key := by
  have alike : (Rows.without (requests.flatMap (Removal.hides · key)) : List ρ → List ρ) =
      Rows.without (others.flatMap (Removal.hides · key)) :=
    Rows.without_congr fun id => (reordered.flatMap_right _).mem_iff
  rw [get?_startedAll, get?_startedAll, alike]

end Desk

namespace Rows

/-- Ids that are dropped list after list, in whatever order of the lists. -/
theorem foldl_without_of_perm {removals others : List (List String)}
    (reordered : removals.Perm others) (rows : List ρ) :
    removals.foldl (fun rows ids => without ids rows) rows =
      others.foldl (fun rows ids => without ids rows) rows := by
  apply reordered.foldl_eq'
  intro early _ later _ rows
  rw [without_without, without_without]
  exact congrFun (without_congr fun id => by rw [List.mem_append, List.mem_append, or_comm]) rows

/-- What changes of a list come to, one by one and together. -/
structure EditsCompose (ρ : Type) [Row ρ] : Prop where
  drops : ∀ (ids : List String) (rows kept : List ρ),
    kept = without ids rows ↔ LeavesOut ids rows kept
  /-- Sets of ids are dropped one after the other, or all at once. -/
  dropsTogether : ∀ (early later both : List String) (rows : List ρ),
    (∀ id, id ∈ both ↔ id ∈ early ∨ id ∈ later) →
      without later (without early rows) = without both rows ∧
        without early (without later rows) = without both rows
  replaces : ∀ replacements rows kept : List ρ,
    kept = withReplacements replacements rows ↔ List.Forall₂ (Shows replacements) rows kept
  keepsIds : ∀ replacements rows : List ρ,
    (withReplacements replacements rows).map Row.id = rows.map Row.id
  replacesTogether : ∀ later early rows : List ρ,
    withReplacements later (withReplacements early rows) = withReplacements (early ++ later) rows
  dropsReplaced : ∀ (ids : List String) (replacements rows : List ρ),
    without ids (withReplacements replacements rows) =
      withReplacements replacements (without ids rows)
  dropsInAnyOrder : ∀ removals others : List (List String), removals.Perm others →
    ∀ rows : List ρ, removals.foldl (fun rows ids => without ids rows) rows =
      others.foldl (fun rows ids => without ids rows) rows
  /-- Deletions that wait for the source show the same lists in any order. -/
  pending : ∀ requests others : List (Removal ρ), requests.Perm others →
    ∀ (desk : Desk ρ) (key : ListKey),
      (requests.foldl Desk.started desk).cache.get? key =
        (others.foldl Desk.started desk).cache.get? key

theorem editsCompose (ρ : Type) [Row ρ] : EditsCompose ρ where
  drops _ _ _ := eq_without_iff
  dropsTogether := by
    intro early later both rows union
    rw [without_without, without_without]
    constructor
    · exact congrFun (without_congr fun id => by rw [List.mem_append, union]) rows
    · exact congrFun (without_congr fun id => by rw [List.mem_append, union, or_comm]) rows
  replaces _ _ _ := eq_withReplacements_iff
  keepsIds := ids_withReplacements
  replacesTogether := withReplacements_withReplacements
  dropsReplaced := without_withReplacements
  dropsInAnyOrder _ _ reordered := foldl_without_of_perm reordered
  pending _ _ reordered desk key := desk.get?_startedAll_of_perm key reordered

end Rows

end Depot
