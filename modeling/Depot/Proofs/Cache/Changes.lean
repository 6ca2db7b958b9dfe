import Depot.Stock.Row
import Mathlib.Data.List.Forall2

/-!
Contract: changes of a list of rows compose.

Dropping rows leaves all others in their order, and ids that are dropped one after another are
dropped together. Replacing rows leaves the ids where they are. At each place the last
replacement with the id is seen, so that lists of replacements one after another are one list.
Rows that are dropped may be replaced before or after.

Owns: what dropping and replacing leave, and how they compose.
Does not own: the cache whose lists are changed (`Depot.Proofs.Edit.Pending`).
-/

namespace Depot.Rows

variable {ρ : Type} [Row ρ] {ids others : List String} {rows kept replacements : List ρ}
  {row shown : ρ}

/-! ### Rows that are dropped -/

/-- What is left of rows: all with other ids, in their order. -/
structure LeavesOut (ids : List String) (rows kept : List ρ) : Prop where
  sublist : kept.Sublist rows
  others : ∀ row ∈ kept, Row.id row ∉ ids
  greatest : ∀ other : List ρ, other.Sublist rows → (∀ row ∈ other, Row.id row ∉ ids) →
    other.Sublist kept

theorem mem_without : row ∈ without ids rows ↔ row ∈ rows ∧ Row.id row ∉ ids := by
  simp [without]

theorem leavesOut_without (ids : List String) (rows : List ρ) :
    LeavesOut ids rows (without ids rows) where
  sublist := List.filter_sublist
  others _ member := (mem_without.mp member).2
  greatest := by
    intro other sublist out
    have all : without ids other = other := by
      apply List.filter_eq_self.mpr
      intro row member
      simpa using out row member
    rw [← all]
    exact sublist.filter _

theorem eq_without_iff : kept = without ids rows ↔ LeavesOut ids rows kept := by
  constructor
  · rintro rfl
    exact leavesOut_without ids rows
  · intro leaves
    have whole := leavesOut_without ids rows
    exact (whole.greatest kept leaves.sublist leaves.others).antisymm
      (leaves.greatest _ whole.sublist whole.others)

theorem without_congr (alike : ∀ id, id ∈ ids ↔ id ∈ others) :
    (without ids : List ρ → List ρ) = without others := by
  funext rows
  apply List.filter_congr
  intro row _
  rw [Bool.not_inj_iff, Bool.eq_iff_iff, List.contains_iff_mem, List.contains_iff_mem, alike]

theorem without_nil : (without [] : List ρ → List ρ) = id := by
  funext rows
  exact List.filter_eq_self.mpr fun _ _ => rfl

theorem without_without (later early : List String) (rows : List ρ) :
    without later (without early rows) = without (early ++ later) rows := by
  rw [without, without, without, List.filter_filter]
  apply List.filter_congr
  intro row _
  rw [List.contains_append, Bool.not_or, Bool.and_comm]

omit [Row ρ] in
/-- Where the changed list is settled, so is what a cache shows of it, if anything. -/
theorem rel_iff_eq_map {Changed : List ρ → List ρ → Prop} {change : List ρ → List ρ}
    (settled : ∀ {rows kept : List ρ}, kept = change rows ↔ Changed rows kept)
    {cached shown : Option (List ρ)} :
    Option.Rel Changed cached shown ↔ shown = cached.map change := by
  cases cached <;> cases shown <;> simp [settled]

/-! ### Rows that are replaced -/

/-- The row is the last one with the id. -/
def IsLast (replacements : List ρ) (id : String) (row : ρ) : Prop :=
  ∃ before after, replacements = before ++ row :: after ∧ Row.id row = id ∧
    ∀ later ∈ after, Row.id later ≠ id

/-- What is seen in the place of a row: the last replacement with its id, or the row where
there is none. -/
inductive Shows (replacements : List ρ) (row : ρ) : ρ → Prop where
  | replaced {shown : ρ} (last : IsLast replacements (Row.id row) shown) :
      Shows replacements row shown
  | unknown (none : ∀ replacement ∈ replacements, Row.id replacement ≠ Row.id row) :
      Shows replacements row row

theorem find?_reverse_eq_some {id : String} :
    find? replacements.reverse id = some row ↔ IsLast replacements id row := by
  rw [find?, List.find?_eq_some_iff_append, decide_eq_true_eq]
  constructor
  · rintro ⟨same, after, before, split, others⟩
    refine ⟨before.reverse, after.reverse, ?_, same, ?_⟩
    · rw [← List.reverse_reverse replacements, split, List.reverse_append, List.reverse_cons,
        List.append_assoc, List.singleton_append]
    · intro later member
      simpa using others later (List.mem_reverse.mp member)
  · rintro ⟨before, after, rfl, same, others⟩
    refine ⟨same, after.reverse, before.reverse, ?_, ?_⟩
    · rw [List.reverse_append, List.reverse_cons, List.append_assoc, List.singleton_append]
    · intro later member
      simpa using others later (List.mem_reverse.mp member)

theorem find?_reverse_eq_none {id : String} :
    find? replacements.reverse id = none ↔
      ∀ replacement ∈ replacements, Row.id replacement ≠ id := by
  simp [find?, List.find?_eq_none]

theorem shows_iff :
    Shows replacements row shown ↔
      (find? replacements.reverse (Row.id row)).getD row = shown := by
  constructor
  · intro shows
    cases shows with
    | replaced last => rw [find?_reverse_eq_some.mpr last, Option.getD_some]
    | unknown none => rw [find?_reverse_eq_none.mpr none, Option.getD_none]
  · rintro rfl
    cases found : find? replacements.reverse (Row.id row) with
    | none => exact .unknown (find?_reverse_eq_none.mp found)
    | some last => exact .replaced (find?_reverse_eq_some.mp found)

/-- What is seen has the id of the row. -/
theorem id_shown (replacements : List ρ) (row : ρ) :
    Row.id ((find? replacements.reverse (Row.id row)).getD row) = Row.id row := by
  cases found : find? replacements.reverse (Row.id row) with
  | none => rfl
  | some last =>
      obtain ⟨_, _, _, same, _⟩ := find?_reverse_eq_some.mp found
      exact same

/-- Place by place, what is seen is settled. -/
theorem eq_withReplacements_iff :
    kept = withReplacements replacements rows ↔
      List.Forall₂ (Shows replacements) rows kept := by
  have same : Shows replacements = fun row shown =>
      (find? replacements.reverse (Row.id row)).getD row = shown := by
    funext row shown
    exact propext shows_iff
  rw [same, ← List.forall₂_map_left_iff (R := Eq), List.forall₂_eq_eq_eq, eq_comm]
  rfl

theorem ids_withReplacements (replacements rows : List ρ) :
    (withReplacements replacements rows).map Row.id = rows.map Row.id := by
  rw [withReplacements, List.map_map]
  apply List.map_congr_left
  intro row _
  exact id_shown replacements row

theorem withReplacements_withReplacements (later early rows : List ρ) :
    withReplacements later (withReplacements early rows) =
      withReplacements (early ++ later) rows := by
  rw [withReplacements, withReplacements, withReplacements, List.map_map]
  apply List.map_congr_left
  intro row _
  rw [Function.comp_apply, id_shown, List.reverse_append, find?, find?, find?, List.find?_append,
    Option.getD_or]

theorem without_withReplacements (ids : List String) (replacements rows : List ρ) :
    without ids (withReplacements replacements rows) =
      withReplacements replacements (without ids rows) := by
  rw [without, withReplacements, List.filter_map]
  apply congrArg
  apply List.filter_congr
  intro row _
  rw [Function.comp_apply, id_shown]

end Depot.Rows
