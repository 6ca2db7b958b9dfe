/-!
Contract: values under keys, at most one under each.

A `Keyed` collection lists its values in the order in which their keys first
came. `put` leaves a key that is there in its place and appends a new one;
`erase` drops a key and `keep` drops all but some. `get?_put`, `get?_erase` and
`get?_keep` say what is found afterwards, so that nothing outside this module looks
at the list.

Owns: the collection, its invariant and the three laws.
Does not own: what the keys mean.
-/

namespace Depot

/-- Values under distinct keys. -/
structure Keyed (κ α : Type) where
  items : List (κ × α)
  distinct : (items.map Prod.fst).Nodup

namespace Keyed

variable {κ α : Type} [DecidableEq κ]

def empty : Keyed κ α := ⟨[], .nil⟩

instance : Inhabited (Keyed κ α) := ⟨empty⟩

/-- The first value that a list of pairs has under a key. -/
def findIn (key : κ) : List (κ × α) → Option α
  | [] => none
  | item :: items => if item.1 = key then some item.2 else findIn key items

/-- The list with a value put in the place of the key's, or at the end. -/
def putIn (key : κ) (value : α) : List (κ × α) → List (κ × α)
  | [] => [(key, value)]
  | item :: items =>
      if item.1 = key then (key, value) :: items else item :: putIn key value items

/-- The keys after a put: the same ones, with a new one at the end. -/
theorem keys_putIn (key : κ) (value : α) (items : List (κ × α)) :
    (putIn key value items).map Prod.fst =
      if key ∈ items.map Prod.fst then items.map Prod.fst
      else items.map Prod.fst ++ [key] := by
  induction items with
  | nil => simp [putIn]
  | cons item items inductionHypothesis =>
      by_cases same : item.1 = key
      · simp [putIn, same]
      · have other : ¬key = item.1 := fun equal => same equal.symm
        simp only [putIn, same, ↓reduceIte, List.map_cons, inductionHypothesis,
          List.mem_cons, other, false_or]
        split <;> simp

theorem nodup_putIn (key : κ) (value : α) {items : List (κ × α)}
    (distinct : (items.map Prod.fst).Nodup) :
    ((putIn key value items).map Prod.fst).Nodup := by
  rw [keys_putIn]
  split
  · exact distinct
  · rename_i absent
    rw [List.nodup_append]
    exact ⟨distinct, by simp, fun other member newKey newMember equal => by
      rw [List.mem_singleton] at newMember
      exact absent (newMember ▸ equal ▸ member)⟩

def get? (keyed : Keyed κ α) (key : κ) : Option α :=
  findIn key keyed.items

def has (keyed : Keyed κ α) (key : κ) : Bool :=
  (keyed.get? key).isSome

def put (keyed : Keyed κ α) (key : κ) (value : α) : Keyed κ α :=
  ⟨putIn key value keyed.items, nodup_putIn key value keyed.distinct⟩

def erase (keyed : Keyed κ α) (key : κ) : Keyed κ α :=
  ⟨keyed.items.filter fun item => item.1 ≠ key,
    (List.filter_sublist.map Prod.fst).nodup keyed.distinct⟩

def keep (keyed : Keyed κ α) (wanted : κ → Bool) : Keyed κ α :=
  ⟨keyed.items.filter fun item => wanted item.1,
    (List.filter_sublist.map Prod.fst).nodup keyed.distinct⟩

def mapValues {β : Type} (keyed : Keyed κ α) (change : α → β) : Keyed κ β :=
  ⟨keyed.items.map fun item => (item.1, change item.2), by
    simpa [List.map_map, Function.comp_def] using keyed.distinct⟩

/-- The keys, in the order in which they came. -/
def keys (keyed : Keyed κ α) : List κ :=
  keyed.items.map Prod.fst

def size (keyed : Keyed κ α) : Nat :=
  keyed.items.length

@[simp]
theorem get?_empty (key : κ) : (empty : Keyed κ α).get? key = none := rfl

/-- What is found in a list of pairs after a put. -/
theorem findIn_putIn (key other : κ) (value : α) (items : List (κ × α)) :
    findIn other (putIn key value items) =
      if other = key then some value else findIn other items := by
  induction items with
  | nil =>
      by_cases same : key = other
      · simp [putIn, findIn, same]
      · have reversed : ¬other = key := fun equal => same equal.symm
        simp [putIn, findIn, same, reversed]
  | cons item items inductionHypothesis =>
      by_cases here : item.1 = key
      · by_cases same : key = other
        · simp [putIn, findIn, here, same]
        · have reversed : ¬other = key := fun equal => same equal.symm
          simp [putIn, findIn, here, same, reversed]
      · rw [putIn, if_neg here]
        by_cases found : item.1 = other
        · have differs : ¬other = key := fun equal => here (found.trans equal)
          simp [findIn, found, differs]
        · simp only [findIn, found, ↓reduceIte, inductionHypothesis]

/-- The keys are those under which there is a value. -/
theorem mem_keys (keyed : Keyed κ α) (key : κ) :
    key ∈ keyed.keys ↔ (keyed.get? key).isSome := by
  obtain ⟨items, distinct⟩ := keyed
  simp only [keys, get?]
  clear distinct
  induction items with
  | nil => simp [findIn]
  | cons item items inductionHypothesis =>
      by_cases here : item.1 = key
      · simp [findIn, here]
      · have apart : ¬key = item.1 := fun equal => here equal.symm
        simp only [findIn, here, ↓reduceIte, List.map_cons, List.mem_cons, apart, false_or]
        exact inductionHypothesis

/-- A put is found under its key and changes nothing under the others. -/
@[simp]
theorem get?_put (keyed : Keyed κ α) (key other : κ) (value : α) :
    (keyed.put key value).get? other =
      if other = key then some value else keyed.get? other :=
  findIn_putIn key other value keyed.items

/-- An erased key is absent, the others are as before. -/
@[simp]
theorem get?_erase (keyed : Keyed κ α) (key other : κ) :
    (keyed.erase key).get? other = if other = key then none else keyed.get? other := by
  obtain ⟨items, distinct⟩ := keyed
  simp only [get?, erase]
  clear distinct
  induction items with
  | nil => simp [findIn]
  | cons item items inductionHypothesis =>
      by_cases here : item.1 = key
      · rw [List.filter_cons_of_neg (by simp [here]), inductionHypothesis]
        by_cases same : other = key
        · simp [same]
        · have differs : ¬item.1 = other := fun equal => same (equal ▸ here)
          simp [findIn, same, differs]
      · rw [List.filter_cons_of_pos (by simp [here])]
        by_cases found : item.1 = other
        · have differs : ¬other = key := fun equal => here (found.trans equal)
          simp [findIn, found, differs]
        · simp only [findIn, found, ↓reduceIte]
          exact inductionHypothesis

/-- Of the keys that are kept the values are as before, the others are absent. -/
@[simp]
theorem get?_keep (keyed : Keyed κ α) (wanted : κ → Bool) (key : κ) :
    (keyed.keep wanted).get? key = if wanted key then keyed.get? key else none := by
  obtain ⟨items, distinct⟩ := keyed
  simp only [get?, keep]
  clear distinct
  induction items with
  | nil => simp [findIn]
  | cons item items inductionHypothesis =>
      by_cases kept : wanted item.1
      · rw [List.filter_cons_of_pos (by simp [kept])]
        by_cases here : item.1 = key
        · subst here
          simp [findIn, kept]
        · simp only [findIn, here, ↓reduceIte, inductionHypothesis]
      · rw [List.filter_cons_of_neg (by simp [kept]), inductionHypothesis]
        by_cases here : item.1 = key
        · subst here
          simp [kept]
        · simp only [findIn, here, ↓reduceIte]

end Keyed

end Depot
