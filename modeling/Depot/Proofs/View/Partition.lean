import Depot.Proofs.Text.Bytes
import Depot.Proofs.View.Grouping
import Depot.Proofs.View.Stable
import Mathlib.Data.List.Sort
import Mathlib.Data.Prod.Lex

/-!
Contract: the groups of lines are one for each item, in the order of the items.

Groups are sorted after they have been gathered. No two of them have items that stand at one
place, since their ids differ, so they are strictly in order and what was gathered settles where
each of them is. Lines that are taken from the groups in their order are gathered into the same
groups again.

Owns: the order of items, and what is known of the groups of any lines.
Does not own: how lines are gathered (`Depot.Proofs.View.Grouping`), and groups in the order
of their first lines (`Depot.Proofs.Screen.Walk`).
-/

namespace Depot

/-! ### The order of items -/

namespace Item

/-- Items by name, then by code, then by id, texts by their bytes. -/
def Precedes (left right : Item) : Prop :=
  Text.bytes left.name < Text.bytes right.name ∨
    left.name = right.name ∧
      (Text.bytes left.code < Text.bytes right.code ∨
        left.code = right.code ∧ Text.bytes left.id < Text.bytes right.id)

/-- Where an item stands in the order of items. -/
def rank (item : Item) : String ×ₗ String ×ₗ String :=
  toLex (item.name, toLex (item.code, item.id))

theorem precedes_iff (left right : Item) : left.Precedes right ↔ left.rank < right.rank := by
  simp only [Precedes, rank, Text.bytes_lt_bytes_iff, Prod.Lex.toLex_lt_toLex]

theorem compareItems_ne_gt_iff (left right : Item) :
    ItemGroup.compareItems left right ≠ .gt ↔ left.rank ≤ right.rank := by
  rw [← not_lt]
  apply not_congr
  simp only [ItemGroup.compareItems, rank, Prod.Lex.toLex_lt_toLex, Ordering.then_eq_gt,
    compare_gt_iff_gt, compare_eq_iff_eq, @eq_comm _ left.name, @eq_comm _ left.code]

theorem id_eq_of_rank_eq {left right : Item} (same : left.rank = right.rank) :
    left.id = right.id :=
  congrArg (fun place : String ×ₗ String ×ₗ String => (ofLex (ofLex place).2).2) same

end Item

namespace ItemGroup

/-! ### Groups in order -/

theorem pairwise_ofLines (lines : List Line) :
    (ofLines lines).Pairwise fun left right => left.item.rank < right.item.rank := by
  have sorted : (ofLines lines).Pairwise fun left right => left.item.rank ≤ right.item.rank :=
    pairwise_rank_mergeSort (fun left right => Item.compareItems_ne_gt_iff left.item right.item)
      (gather lines)
  have distinct : (ofLines lines).Pairwise fun left right => left.item.id ≠ right.item.id :=
    List.pairwise_map.mp (gathered_ofLines lines).distinct
  refine (sorted.and distinct).imp ?_
  intro left right both
  exact lt_of_le_of_ne both.1 fun same => both.2 (Item.id_eq_of_rank_eq same)

/-- Groups that have gathered the same lines and are in order are the same. -/
theorem eq_ofLines {lines : List Line} {groups : List ItemGroup} (gathered : Gathered lines groups)
    (sorted : groups.Pairwise fun left right => left.item.rank < right.item.rank) :
    groups = ofLines lines := by
  have gatheredOf := gathered_ofLines lines
  have nodup : groups.Nodup := gathered.distinct.of_map _
  have nodupOf : (ofLines lines).Nodup := gatheredOf.distinct.of_map _
  have same : groups.Perm (ofLines lines) := by
    apply (List.perm_ext_iff_of_nodup nodup nodupOf).mpr
    intro group
    rw [gathered.mem_iff, gatheredOf.mem_iff]
  apply List.Perm.eq_of_pairwise _ sorted (pairwise_ofLines lines) same
  intro left right _ _ below above
  exact absurd above (lt_asymm below)

/-! ### Lines taken from their groups -/

namespace Gathered

variable {lines : List Line} {groups : List ItemGroup}

/-- Of all groups only its own has the id of a group. -/
theorem filter_id (gathered : Gathered lines groups) {group : ItemGroup}
    (member : group ∈ groups) :
    (groups.filter fun other => other.item.id = group.item.id) = [group] := by
  have distinct := gathered.distinct
  obtain ⟨before, after, rfl⟩ := List.append_of_mem member
  rw [ids, List.map_append, List.map_cons] at distinct
  have apart := (List.nodup_cons.mp (List.nodup_middle.mp distinct)).1
  rw [← List.map_append] at apart
  have others : ∀ other ∈ before ++ after, ¬other.item.id = group.item.id := by
    intro other inside same
    exact apart (List.mem_map.mpr ⟨other, inside, same⟩)
  have noneBefore : (before.filter fun other => other.item.id = group.item.id) = [] := by
    rw [List.filter_eq_nil_iff]
    intro other inside
    simpa using others other (List.mem_append_left _ inside)
  have noneAfter : (after.filter fun other => other.item.id = group.item.id) = [] := by
    rw [List.filter_eq_nil_iff]
    intro other inside
    simpa using others other (List.mem_append_right _ inside)
  rw [List.filter_append, List.filter_cons_of_pos (by simp), noneBefore, noneAfter,
    List.nil_append]

/-- Taken from their groups, the lines of one item are in the order in which they were. -/
theorem filter_flatMap (gathered : Gathered lines groups) {group : ItemGroup}
    (member : group ∈ groups) :
    ((groups.flatMap ItemGroup.lines).filter fun line => line.item.id = group.item.id) =
      group.lines := by
  have picked := flatMap_filter_of_uniform
    (fun other inside _ => (gathered.gathers other inside).uniform)
    (fun id => decide (id = group.item.id))
  rw [← picked, gathered.filter_id member, List.flatMap_singleton]

/-- Lines that are taken from their groups are gathered by the same groups. -/
theorem flatMap_lines (gathered : Gathered lines groups) :
    Gathered (groups.flatMap ItemGroup.lines) groups where
  distinct := gathered.distinct
  gathers := by
    intro group member
    exact ⟨(gathered.filter_flatMap member).symm, (gathered.gathers group member).item_eq⟩
  covers := by
    intro line member
    obtain ⟨group, inside, held⟩ := List.mem_flatMap.mp member
    rw [(gathered.gathers group inside).uniform held]
    exact mem_ids.mpr ⟨group, inside, rfl⟩

end Gathered

/-! ### The groups of lines -/

/-- Groups that part lines by item. -/
structure Parts (lines : List Line) (groups : List ItemGroup) : Prop where
  distinct : (groups.map fun group => group.item.id).Nodup
  ids : ∀ id, (∃ group ∈ groups, group.item.id = id) ↔ ∃ line ∈ lines, line.item.id = id
  nonempty : ∀ group ∈ groups, group.lines ≠ []
  /-- A group holds the lines with its id, in the order in which they were given. -/
  holds : ∀ group ∈ groups, group.lines = lines.filter fun line => line.item.id = group.item.id
  item : ∀ group ∈ groups, group.lines.head?.map Line.item = some group.item
  ordered : groups.Pairwise fun left right => left.item.Precedes right.item
  /-- Every line is in the groups as often as it was given. -/
  complete : (groups.flatMap ItemGroup.lines).Perm lines

theorem parts_of_gathered {lines : List Line} {groups : List ItemGroup}
    (gathered : Gathered lines groups)
    (sorted : groups.Pairwise fun left right => left.item.rank < right.item.rank)
    (complete : (groups.flatMap ItemGroup.lines).Perm lines) : Parts lines groups where
  distinct := gathered.distinct
  ids := by
    intro id
    constructor
    · rintro ⟨group, member, rfl⟩
      have gathers := gathered.gathers group member
      obtain ⟨first, others, starts⟩ := List.exists_cons_of_ne_nil gathers.ne_nil
      have inside : first ∈ group.lines := starts ▸ List.mem_cons_self
      have given : first ∈ groups.flatMap ItemGroup.lines :=
        List.mem_flatMap.mpr ⟨group, member, inside⟩
      exact ⟨first, complete.mem_iff.mp given, gathers.uniform inside⟩
    · rintro ⟨line, member, rfl⟩
      exact mem_ids.mp (gathered.covers line member)
  nonempty := fun group member => (gathered.gathers group member).ne_nil
  holds := fun group member => (gathered.gathers group member).lines_eq
  item := fun group member => (gathered.gathers group member).item_eq
  ordered := sorted.imp fun below => (Item.precedes_iff _ _).mpr below
  complete := complete

/-- The groups of lines part them by item, and lines that are taken from their groups have the
same groups again. -/
theorem parts_ofLines (lines : List Line) :
    Parts lines (ofLines lines) ∧
      ofLines ((ofLines lines).flatMap ItemGroup.lines) = ofLines lines := by
  have gathered := gathered_ofLines lines
  have sorted := pairwise_ofLines lines
  exact ⟨parts_of_gathered gathered sorted (ofLines_perm lines),
    (eq_ofLines gathered.flatMap_lines sorted).symm⟩

end ItemGroup

end Depot
