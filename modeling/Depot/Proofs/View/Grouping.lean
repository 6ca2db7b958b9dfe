import Depot.View.Grouping
import Mathlib.Data.List.Induction
import Mathlib.Data.List.Nodup

/-!
Contract: arranging lines neither loses nor adds any.

Lines are sorted, gathered by item, and their groups are sorted. Each of these only moves
lines to other places, also where items repeat or lines are equal. Lines are gathered one by
one. The index of places always says where the first group of an id is, so that a line comes
where a search along the groups puts it. Groups that have `Gathered` some lines have gathered
one more after `insertLine`, and so there is one group for each item id, with the lines that
have it.

Owns: that lines and groups as shown hold the lines that were given, and which group holds
which.
Does not own: the order of groups (`Depot.Proofs.View.Partition`), and which lines are selected
(`Depot.Proofs.Screen.Selected`).
-/

namespace Depot

open List

/-- Sorted lines are the lines in another order. -/
theorem Sorting.sortLines_perm (sorting : Sorting) (lines : List Line) :
    sorting.sortLines lines ~ lines :=
  List.mergeSort_perm _ _

namespace ItemGroup

/-! ### The index of places -/

/-- The groups with one more line, the group of which is searched along them. -/
def insertLine (line : Line) : List ItemGroup → List ItemGroup
  | [] => [⟨line.item, [line]⟩]
  | group :: groups =>
      if group.item.id = line.item.id then
        { group with lines := group.lines ++ [line] } :: groups
      else group :: insertLine line groups

/-- The ids of the groups' items. -/
def ids (groups : List ItemGroup) : List String :=
  groups.map fun group => group.item.id

theorem ids_cons (group : ItemGroup) (groups : List ItemGroup) :
    ids (group :: groups) = group.item.id :: ids groups := rfl

theorem mem_ids {groups : List ItemGroup} {id : String} :
    id ∈ ids groups ↔ ∃ group ∈ groups, group.item.id = id :=
  List.mem_map

/-- Taking up a line adds the id of its item, if it is new. -/
theorem ids_insertLine (line : Line) (groups : List ItemGroup) :
    ids (insertLine line groups) =
      if line.item.id ∈ ids groups then ids groups else ids groups ++ [line.item.id] := by
  induction groups with
  | nil => rfl
  | cons group groups inductionHypothesis =>
      rw [insertLine]
      split
      next same => simp [ids_cons, same]
      next differs =>
        have apart : ¬line.item.id = group.item.id := fun same => differs same.symm
        rw [ids_cons, ids_cons, inductionHypothesis]
        by_cases known : line.item.id ∈ ids groups
        · rw [if_pos known, if_pos (List.mem_cons_of_mem _ known)]
        · rw [if_neg known, if_neg (List.not_mem_cons_of_ne_of_not_mem apart known)]
          rfl

theorem insertLine_of_idxOf?_eq_none {line : Line} {groups : List ItemGroup}
    (unknown : (ids groups).idxOf? line.item.id = none) :
    insertLine line groups = groups ++ [⟨line.item, [line]⟩] := by
  induction groups with
  | nil => rfl
  | cons group groups inductionHypothesis =>
      rw [ids_cons, List.idxOf?_cons] at unknown
      split at unknown
      next => cases unknown
      next differs =>
        rw [insertLine, if_neg (by simpa using differs), List.cons_append,
          inductionHypothesis (Option.map_eq_none_iff.mp unknown)]

theorem insertLine_of_idxOf?_eq_some {line : Line} {groups : List ItemGroup} {place : Nat}
    (known : (ids groups).idxOf? line.item.id = some place) :
    insertLine line groups =
      groups.modify place fun group => { group with lines := group.lines ++ [line] } := by
  induction groups generalizing place with
  | nil => cases known
  | cons group groups inductionHypothesis =>
      rw [ids_cons, List.idxOf?_cons] at known
      split at known
      next same =>
        obtain rfl := Option.some.inj known
        rw [insertLine, if_pos (by simpa using same), List.modify_zero_cons]
      next differs =>
        obtain ⟨later, found, rfl⟩ := Option.map_eq_some_iff.mp known
        rw [insertLine, if_neg (by simpa using differs), inductionHypothesis found,
          List.modify_succ_cons]

namespace Gathering

variable {gathering : Gathering}

/-- Whether the index says of each item id where its first group is, if there is one. -/
def IsIndexed (gathering : Gathering) : Prop :=
  ∀ id, gathering.index.get? id = (ids gathering.groups).idxOf? id

theorem IsIndexed.groups_add (indexed : gathering.IsIndexed) (line : Line) :
    (gathering.add line).groups = insertLine line gathering.groups := by
  rw [add, indexed]
  split
  next place known => exact (insertLine_of_idxOf?_eq_some known).symm
  next unknown => exact (insertLine_of_idxOf?_eq_none unknown).symm

theorem IsIndexed.add (indexed : gathering.IsIndexed) (line : Line) :
    (gathering.add line).IsIndexed := by
  intro id
  rw [indexed.groups_add, ids_insertLine, Gathering.add, indexed]
  split
  next place known =>
    have listed : line.item.id ∈ ids gathering.groups := by
      apply Decidable.not_not.mp
      intro missing
      rw [List.idxOf?_eq_none_iff.mpr missing] at known
      cases known
    rw [if_pos listed]
    exact indexed id
  next unknown =>
    have missing := List.idxOf?_eq_none_iff.mp unknown
    have length : (ids gathering.groups).length = gathering.groups.length := List.length_map _
    rw [if_neg missing, Keyed.get?_put, List.idxOf?, List.findIdx?_append, ← List.idxOf?,
      indexed id]
    by_cases same : id = line.item.id
    · subst same
      simp [unknown, length]
    · have other : (line.item.id == id) = false := by simpa using Ne.symm same
      simp [same, other]

theorem IsIndexed.groups_foldl (indexed : gathering.IsIndexed) (lines : List Line) :
    (lines.foldl Gathering.add gathering).groups =
      lines.foldl (fun groups line => insertLine line groups) gathering.groups := by
  induction lines generalizing gathering with
  | nil => rfl
  | cons line lines inductionHypothesis =>
      rw [List.foldl_cons, List.foldl_cons, inductionHypothesis (indexed.add line),
        indexed.groups_add line]

end Gathering

/-- Lines are gathered as if the group of each were searched along the others. -/
theorem gather_eq (lines : List Line) :
    gather lines = lines.foldl (fun groups line => insertLine line groups) [] := by
  have start : (Gathering.mk Keyed.empty []).IsIndexed := fun _ => rfl
  exact start.groups_foldl lines

/-! ### Lines and their groups -/

/-- A line comes into exactly one group, and the others stay in theirs. -/
theorem insertLine_perm (line : Line) (groups : List ItemGroup) :
    (insertLine line groups).flatMap ItemGroup.lines ~ line :: groups.flatMap ItemGroup.lines := by
  induction groups with
  | nil => exact Perm.refl _
  | cons group groups inductionHypothesis =>
      rw [insertLine]
      split
      next same =>
        rw [flatMap_cons, flatMap_cons, append_assoc]
        exact perm_middle
      next differs =>
        rw [flatMap_cons, flatMap_cons]
        exact (inductionHypothesis.append_left _).trans perm_middle

theorem foldl_insertLine_perm (lines : List Line) (groups : List ItemGroup) :
    (lines.foldl (fun groups line => insertLine line groups) groups).flatMap ItemGroup.lines ~
      lines ++ groups.flatMap ItemGroup.lines := by
  induction lines generalizing groups with
  | nil => exact Perm.refl _
  | cons line lines inductionHypothesis =>
      refine (inductionHypothesis (insertLine line groups)).trans ?_
      exact ((insertLine_perm line groups).append_left lines).trans perm_middle

/-- The groups of lines hold these lines. -/
theorem ofLines_perm (lines : List Line) : (ofLines lines).flatMap ItemGroup.lines ~ lines := by
  have gathered : (gather lines).flatMap ItemGroup.lines ~ lines := by
    have all := foldl_insertLine_perm lines []
    rwa [flatMap_nil, append_nil, ← gather_eq] at all
  exact ((List.mergeSort_perm _ _).flatMap_right _).trans gathered

/-- Groups in another order hold the same lines. -/
theorem sortGroups_perm (sorting : Sorting) (groups : List ItemGroup) :
    (sortGroups sorting groups).flatMap ItemGroup.lines ~ groups.flatMap ItemGroup.lines :=
  (List.mergeSort_perm _ _).flatMap_right _

/-! ### The lines of a group -/

/-- The group is that of its item's id among some lines: it holds those with the id, in their
order, and is named after the first of them. -/
structure Gathers (group : ItemGroup) (lines : List Line) : Prop where
  lines_eq : group.lines = lines.filter fun line => line.item.id = group.item.id
  item_eq : group.lines.head?.map Line.item = some group.item

/-- The groups are those of all item ids among some lines. -/
structure Gathered (lines : List Line) (groups : List ItemGroup) : Prop where
  distinct : (ids groups).Nodup
  gathers : ∀ group ∈ groups, group.Gathers lines
  covers : ∀ line ∈ lines, line.item.id ∈ ids groups

namespace Gathers

variable {group : ItemGroup} {lines : List Line}

theorem ne_nil (gathers : group.Gathers lines) : group.lines ≠ [] := by
  intro none
  have named := gathers.item_eq
  rw [none] at named
  cases named

theorem head_of_cons {first : Line} {others : List Line} (gathers : group.Gathers lines)
    (starts : group.lines = first :: others) : first.item = group.item := by
  have named := gathers.item_eq
  rw [starts] at named
  exact Option.some.inj named

/-- All lines of a group have the id of its item. -/
theorem uniform (gathers : group.Gathers lines) {line : Line} (inside : line ∈ group.lines) :
    line.item.id = group.item.id := by
  rw [gathers.lines_eq] at inside
  simpa using (List.mem_filter.mp inside).2

/-- A group without the line's item stays the group of its id when the line comes. -/
theorem other (gathers : group.Gathers lines) {line : Line}
    (differs : group.item.id ≠ line.item.id) : group.Gathers (lines ++ [line]) where
  lines_eq := by
    have apart : ¬line.item.id = group.item.id := fun same => differs same.symm
    rw [List.filter_append, ← gathers.lines_eq]
    simp [apart]
  item_eq := gathers.item_eq

/-- The group of the line's item takes it up as its last one. -/
theorem own (gathers : group.Gathers lines) {line : Line}
    (same : group.item.id = line.item.id) :
    Gathers { group with lines := group.lines ++ [line] } (lines ++ [line]) where
  lines_eq := by
    rw [List.filter_append, ← gathers.lines_eq]
    simp [same]
  item_eq := by
    obtain ⟨first, others, starts⟩ := List.exists_cons_of_ne_nil gathers.ne_nil
    have named := gathers.item_eq
    rw [starts] at named ⊢
    exact named

/-- A line whose item has not come before begins a group. -/
theorem first {line : Line} (fresh : ∀ other ∈ lines, other.item.id ≠ line.item.id) :
    Gathers ⟨line.item, [line]⟩ (lines ++ [line]) where
  lines_eq := by
    have none : (lines.filter fun other => other.item.id = line.item.id) = [] := by
      rw [List.filter_eq_nil_iff]
      simpa using fresh
    rw [List.filter_append, none]
    simp
  item_eq := rfl

end Gathers

/-- A group afterwards is another one as it was, the line's own with the line, or a new one. -/
theorem of_mem_insertLine {line : Line} {groups : List ItemGroup} (distinct : (ids groups).Nodup)
    {group : ItemGroup} (member : group ∈ insertLine line groups) :
    group ∈ groups ∧ group.item.id ≠ line.item.id ∨
      (∃ old ∈ groups, old.item.id = line.item.id ∧
        group = { old with lines := old.lines ++ [line] }) ∨
      line.item.id ∉ ids groups ∧ group = ⟨line.item, [line]⟩ := by
  induction groups with
  | nil => exact .inr (.inr ⟨List.not_mem_nil, List.mem_singleton.mp member⟩)
  | cons first groups inductionHypothesis =>
      obtain ⟨fresh, rest⟩ := List.nodup_cons.mp distinct
      rw [insertLine] at member
      split at member
      next same =>
        rcases List.mem_cons.mp member with own | other
        · exact .inr (.inl ⟨first, List.mem_cons_self, same, own⟩)
        · refine .inl ⟨List.mem_cons_of_mem _ other, ?_⟩
          intro again
          exact fresh (mem_ids.mpr ⟨group, other, again.trans same.symm⟩)
      next differs =>
        rcases List.mem_cons.mp member with rfl | later
        · exact .inl ⟨List.mem_cons_self, differs⟩
        · rcases inductionHypothesis rest later with
            ⟨other, apart⟩ | ⟨old, other, same, grown⟩ | ⟨new, named⟩
          · exact .inl ⟨List.mem_cons_of_mem _ other, apart⟩
          · exact .inr (.inl ⟨old, List.mem_cons_of_mem _ other, same, grown⟩)
          · refine .inr (.inr ⟨?_, named⟩)
            exact List.not_mem_cons_of_ne_of_not_mem (Ne.symm differs) new

namespace Gathered

variable {lines : List Line} {groups : List ItemGroup}

theorem insertLine (gathered : Gathered lines groups) (line : Line) :
    Gathered (lines ++ [line]) (ItemGroup.insertLine line groups) where
  distinct := by
    rw [ids_insertLine]
    split
    next => exact gathered.distinct
    next fresh =>
      rw [← List.concat_eq_append]
      exact gathered.distinct.concat fresh
  gathers := by
    intro group member
    rcases of_mem_insertLine gathered.distinct member with
      ⟨other, differs⟩ | ⟨old, other, same, rfl⟩ | ⟨new, rfl⟩
    · exact (gathered.gathers group other).other differs
    · exact (gathered.gathers old other).own same
    · apply Gathers.first
      intro earlier before same
      exact new (same ▸ gathered.covers earlier before)
  covers := by
    intro other member
    rw [ids_insertLine]
    rcases List.mem_append.mp member with before | last
    · have covered := gathered.covers other before
      split
      next => exact covered
      next => exact List.mem_append_left _ covered
    · rw [List.mem_singleton.mp last]
      split
      next covered => exact covered
      next => exact List.mem_append_right _ List.mem_cons_self

theorem perm {others : List ItemGroup} (gathered : Gathered lines groups)
    (reordered : groups ~ others) : Gathered lines others where
  distinct := (reordered.map _).nodup_iff.mp gathered.distinct
  gathers := fun group member => gathered.gathers group (reordered.mem_iff.mpr member)
  covers := fun line member => (reordered.map _).mem_iff.mp (gathered.covers line member)

/-- Nothing but the group of its id among the lines is one of the groups. -/
theorem mem_iff (gathered : Gathered lines groups) (group : ItemGroup) :
    group ∈ groups ↔ group.Gathers lines := by
  refine ⟨gathered.gathers group, ?_⟩
  intro gathers
  obtain ⟨first, others, starts⟩ := List.exists_cons_of_ne_nil gathers.ne_nil
  have inside : first ∈ group.lines := starts ▸ List.mem_cons_self
  have given : first ∈ lines := by
    rw [gathers.lines_eq] at inside
    exact (List.mem_filter.mp inside).1
  obtain ⟨same, member, id⟩ := mem_ids.mp (gathered.covers first given)
  rw [gathers.uniform inside] at id
  -- Two groups of one id hold the same lines and are named after the same one.
  have lines : same.lines = group.lines := by
    rw [(gathered.gathers same member).lines_eq, gathers.lines_eq, id]
  have item : same.item = group.item := by
    rw [← (gathered.gathers same member).head_of_cons (lines.trans starts),
      gathers.head_of_cons starts]
  have equal : same = group := by
    cases same
    cases group
    cases lines
    cases item
    rfl
  exact equal ▸ member

end Gathered

theorem gathered_gather (lines : List Line) : Gathered lines (gather lines) := by
  induction lines using List.reverseRecOn with
  | nil => exact ⟨.nil, List.forall_mem_nil _, List.forall_mem_nil _⟩
  | append_singleton lines line inductionHypothesis =>
      have taken := inductionHypothesis.insertLine line
      rw [gather_eq] at taken ⊢
      rwa [List.foldl_append]

theorem gathered_ofLines (lines : List Line) : Gathered lines (ofLines lines) :=
  (gathered_gather lines).perm (List.mergeSort_perm _ _).symm

/-! ### Picking groups -/

/-- Groups that are picked by the ids of their items hold the lines that are picked by them. -/
theorem flatMap_filter_of_uniform {groups : List ItemGroup}
    (uniform : ∀ group ∈ groups, ∀ line ∈ group.lines, line.item.id = group.item.id)
    (wanted : String → Bool) :
    (groups.filter fun group => wanted group.item.id).flatMap ItemGroup.lines =
      (groups.flatMap ItemGroup.lines).filter fun line => wanted line.item.id := by
  induction groups with
  | nil => rfl
  | cons group groups inductionHypothesis =>
      obtain ⟨groupUniform, restUniform⟩ := List.forall_mem_cons.mp uniform
      have rest := inductionHypothesis restUniform
      have same : (group.lines.filter fun line => wanted line.item.id) =
          group.lines.filter fun _ => wanted group.item.id := by
        apply List.filter_congr
        intro line inside
        rw [groupUniform line inside]
      rw [List.flatMap_cons, List.filter_append, same, ← rest]
      cases picked : wanted group.item.id with
      | true =>
          have whole : (group.lines.filter fun _ => true) = group.lines :=
            List.filter_eq_self.mpr fun _ _ => rfl
          simp [picked, whole]
      | false => simp [picked]

end ItemGroup

end Depot
