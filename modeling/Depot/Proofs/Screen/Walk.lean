import Depot.Proofs.Screen.Selected

/-!
Contract: stepping from item to item goes through all groups of the screen and ends.

A step knows only an item's id: it looks for the group with that id and finds the first line of
the group after it. The next step starts from that line's item. This goes through the groups in
their order since no two of them have one id, none is empty, and the first line of a group has
the item of the group.

Owns: what a step finds, and where the steps from the first group lead to.
Does not own: which groups there are (`Depot.Proofs.View.Partition`).
-/

namespace Depot

/-! ### Steps one after the other -/

/-- The lines that the steps from an item's id find, each step going on from the item of the
line before, until one is disabled. -/
inductive NextItem.Finds (step : String → NextItem) : String → List Line → Prop
  | ends {id : String} : step id = ⟨none, true⟩ → Finds step id []
  | goesOn {id : String} {line : Line} {lines : List Line} :
      step id = ⟨some line, false⟩ → Finds step line.item.id lines → Finds step id (line :: lines)

theorem NextItem.Finds.unique {step : String → NextItem} {id : String} {lines others : List Line}
    (finds : Finds step id lines) (findsOthers : Finds step id others) : lines = others := by
  induction finds generalizing others with
  | ends disabled =>
      cases findsOthers with
      | ends => rfl
      | goesOn found => cases disabled.symm.trans found
  | goesOn found later inductionHypothesis =>
      cases findsOthers with
      | ends disabled => cases found.symm.trans disabled
      | goesOn foundOther laterOther =>
          cases found.symm.trans foundOther
          rw [inductionHypothesis laterOther]

/-- Steps that go through groups from the first one to the last. -/
structure StepsThrough (step : String → NextItem) (groups : List ItemGroup) : Prop where
  distinct : (groups.map fun group => group.item.id).Nodup
  /-- From a group that another one follows, a step finds the first line of the other one. -/
  follows : ∀ before group after rest, groups = before ++ group :: after :: rest →
    ∃ line, after.lines.head? = some line ∧ line.item = after.item ∧
      step group.item.id = ⟨some line, false⟩
  /-- No step is possible from the last group, and from an item that has no group. -/
  disabled : ∀ id, step id = ⟨none, true⟩ ↔
    (groups.getLast?.map fun group => group.item.id) = some id ∨
      ∀ group ∈ groups, group.item.id ≠ id
  /-- The steps from the first group find the first lines of all others, each once, and with
  the one that finds no line there are as many of them as groups. -/
  visits : ∀ first rest, groups = first :: rest → ∃ lines,
    (∀ others, NextItem.Finds step first.item.id others ↔ others = lines) ∧
      lines.map some = rest.map (fun group => group.lines.head?) ∧
      first.item.id :: lines.map (fun line => line.item.id) =
        groups.map (fun group => group.item.id) ∧
      lines.length + 1 = groups.length

namespace ItemGroup

/-! ### One step -/

theorem nextItem_of_absent {id : String} {groups : List ItemGroup} (absent : id ∉ ids groups) :
    nextItem id groups = ⟨none, true⟩ := by
  have none : next? id groups = none := by
    induction groups with
    | nil => rfl
    | cons group groups inductionHypothesis =>
        rw [ids_cons, List.mem_cons, not_or] at absent
        rw [next?, if_neg (Ne.symm absent.1)]
        exact inductionHypothesis absent.2
  rw [nextItem, none]
  rfl

/-- The step from a group looks at what comes after it. -/
theorem next?_of_split {before after : List ItemGroup} {group : ItemGroup}
    (distinct : (ids (before ++ group :: after)).Nodup) :
    next? group.item.id (before ++ group :: after) =
      after.head?.bind fun following => following.lines.head? := by
  induction before with
  | nil => rw [List.nil_append, next?, if_pos rfl]
  | cons first before inductionHypothesis =>
      rw [List.cons_append, ids_cons, List.nodup_cons] at distinct
      have apart : first.item.id ≠ group.item.id := by
        intro same
        apply distinct.1
        exact mem_ids.mpr ⟨group, List.mem_append_right _ List.mem_cons_self, same.symm⟩
      rw [List.cons_append, next?, if_neg apart]
      exact inductionHypothesis distinct.2

theorem nextItem_last {before : List ItemGroup} {group : ItemGroup}
    (distinct : (ids (before ++ [group])).Nodup) :
    nextItem group.item.id (before ++ [group]) = ⟨none, true⟩ := by
  rw [nextItem, next?_of_split distinct]
  rfl

/-- A group that has gathered lines begins with one of its item. -/
theorem Gathers.exists_head {group : ItemGroup} {rows : List Line} (gathers : group.Gathers rows) :
    ∃ line, group.lines.head? = some line ∧ line.item = group.item :=
  Option.map_eq_some_iff.mp gathers.item_eq

namespace Gathered

variable {rows : List Line} {groups : List ItemGroup}

theorem nextItem_follows (gathered : Gathered rows groups) {before rest : List ItemGroup}
    {group after : ItemGroup} (split : groups = before ++ group :: after :: rest) :
    ∃ line, after.lines.head? = some line ∧ line.item = after.item ∧
      nextItem group.item.id groups = ⟨some line, false⟩ := by
  have member : after ∈ groups := by simp [split]
  obtain ⟨line, head, item⟩ := (gathered.gathers after member).exists_head
  have distinct := gathered.distinct
  rw [split] at distinct
  have found : next? group.item.id groups = some line := by
    rw [split, next?_of_split distinct, List.head?_cons, Option.bind_some, head]
  refine ⟨line, head, item, ?_⟩
  rw [nextItem, found]
  rfl

/-! ### Steps through all groups -/

/-- No line is found exactly from the last group and for an unknown item: from every other
group there is a step. -/
theorem nextItem_disabled_iff (gathered : Gathered rows groups) (id : String) :
    nextItem id groups = ⟨none, true⟩ ↔
      (groups.getLast?.map fun group => group.item.id) = some id ∨
        ∀ group ∈ groups, group.item.id ≠ id := by
  have distinct := gathered.distinct
  constructor
  · intro disabled
    by_cases known : ∃ group ∈ groups, group.item.id = id
    · obtain ⟨group, member, rfl⟩ := known
      obtain ⟨before, after, split⟩ := List.append_of_mem member
      cases after with
      | nil =>
          left
          rw [split, List.getLast?_concat, Option.map_some]
      | cons after rest =>
          obtain ⟨line, -, -, found⟩ := gathered.nextItem_follows split
          cases found.symm.trans disabled
    · right
      intro group member same
      exact known ⟨group, member, same⟩
  · rintro (last | unknown)
    · obtain ⟨group, ends, rfl⟩ := Option.map_eq_some_iff.mp last
      obtain ⟨before, rfl⟩ := List.getLast?_eq_some_iff.mp ends
      exact nextItem_last distinct
    · apply nextItem_of_absent
      intro known
      obtain ⟨group, member, same⟩ := mem_ids.mp known
      exact unknown group member same

/-- From a group the steps find the first lines of the groups after it. -/
theorem finds_rest (gathered : Gathered rows groups) (rest : List ItemGroup)
    {before : List ItemGroup} {group : ItemGroup} (split : groups = before ++ group :: rest) :
    ∃ lines, NextItem.Finds (fun id => nextItem id groups) group.item.id lines ∧
      lines.map some = rest.map (fun group => group.lines.head?) ∧
      lines.map Line.item = rest.map ItemGroup.item := by
  -- What is left to visit gets shorter with each step.
  induction rest generalizing before group with
  | nil =>
      have distinct := gathered.distinct
      rw [split] at distinct
      refine ⟨[], .ends ?_, rfl, rfl⟩
      rw [split]
      exact nextItem_last distinct
  | cons after rest inductionHypothesis =>
      obtain ⟨line, head, item, found⟩ := gathered.nextItem_follows split
      have later : groups = (before ++ [group]) ++ after :: rest := by simp [split]
      obtain ⟨lines, finds, heads, items⟩ := inductionHypothesis later
      rw [← item] at finds
      refine ⟨line :: lines, .goesOn found finds, ?_, ?_⟩
      · rw [List.map_cons, List.map_cons, head, heads]
      · rw [List.map_cons, List.map_cons, item, items]

theorem stepsThrough (gathered : Gathered rows groups) :
    StepsThrough (fun id => nextItem id groups) groups where
  distinct := gathered.distinct
  follows := fun _ _ _ _ split => gathered.nextItem_follows split
  disabled := gathered.nextItem_disabled_iff
  visits := by
    intro first rest starts
    have whole : groups = [] ++ first :: rest := starts
    obtain ⟨lines, finds, heads, items⟩ := gathered.finds_rest rest whole
    have sameIds : lines.map (fun line => line.item.id) =
        rest.map (fun group => group.item.id) := by
      have ids := congrArg (List.map Item.id) items
      rwa [List.map_map, List.map_map] at ids
    have sameLength : lines.length = rest.length := by
      have lengths := congrArg List.length items
      rwa [List.length_map, List.length_map] at lengths
    refine ⟨lines, ?_, heads, ?_, ?_⟩
    · intro others
      constructor
      · exact fun findsOthers => findsOthers.unique finds
      · rintro rfl
        exact finds
    · rw [starts, List.map_cons, sameIds]
    · rw [starts, List.length_cons, sameLength]

end Gathered

end ItemGroup

/-- However a shipment's lines are sorted, the steps from item to item go through their groups
as they are shown. -/
theorem ShipmentScreen.stepsThrough_groups (screen : ShipmentScreen) (rows : List Line) :
    StepsThrough (fun id => screen.nextItem id rows) (screen.groups rows) :=
  (screen.gathered_groups rows).stepsThrough

end Depot
