import Depot.Database.Url
import Depot.Proofs.Text.Blank
import Depot.Proofs.Text.Leading

/-!
Contract: settling an address is done once, and the address names the same file after it.

A settled address is in one of four forms, and each of them is settled to itself: an address
of memory, one of another scheme, a path after the scheme with two slashes, and a path with the
letter of a drive after the bare scheme. What an address names is what stands after its scheme.
Only the slashes in it change, and no scheme is made of them.

Owns: the forms of settled addresses and what they name.
Does not own: the directories that are made for them (`Depot.Proofs.Database.Folders`).
-/

namespace Depot.Database.Url

open Text

variable {url path part raw : List Char}

/-! ### The beginnings of addresses -/

theorem schemeWithSlashes_eq : schemeWithSlashes = scheme ++ ['/', '/'] := by decide

theorem memory_eq : memory = scheme ++ ":memory:".toList := by decide

theorem slashes_prefix_scheme_append :
    schemeWithSlashes <+: scheme ++ path ↔ ['/', '/'] <+: path := by
  rw [schemeWithSlashes_eq, List.prefix_append_right_inj]

theorem memory_prefix_scheme_append :
    memory <+: scheme ++ path ↔ ":memory:".toList <+: path := by
  rw [memory_eq, List.prefix_append_right_inj]

theorem scheme_prefix_of_slashes (begins : schemeWithSlashes <+: url) : scheme <+: url := by
  rw [schemeWithSlashes_eq] at begins
  exact (List.prefix_append scheme _).trans begins

theorem not_memory_prefix_slashes : ¬memory <+: schemeWithSlashes ++ path := by
  rw [schemeWithSlashes_eq, List.append_assoc, memory_prefix_scheme_append]
  exact not_prefix_of_ne (by decide)

/-! ### Paths with slashes -/

theorem withSlashes_withSlashes (path : List Char) :
    withSlashes (withSlashes path) = withSlashes path := by
  rw [withSlashes, withSlashes, List.map_map]
  apply List.map_congr_left
  intro character _
  dsimp only [Function.comp_apply]
  split
  next => rfl
  next => rfl

theorem withSlashes_eq_nil : withSlashes path = [] ↔ path = [] := List.map_eq_nil_iff

theorem before_withSlashes (path : List Char) :
    before '?' (withSlashes path) = withSlashes (before '?' path) := by
  rw [before, withSlashes, List.takeWhile_map]
  congr 1
  apply congrArg (List.takeWhile · path)
  funext character
  dsimp only [Function.comp_apply]
  split
  next backslash => rw [backslash]; rfl
  next => rfl

/-- A slash that was a backslash stands for no other character. -/
theorem prefix_of_prefix_withSlashes {start : List Char} (noSlash : '/' ∉ start)
    (begins : start <+: withSlashes path) : start <+: path := by
  induction start generalizing path with
  | nil => exact List.nil_prefix
  | cons wanted start inductionHypothesis =>
      cases path with
      | nil => exact begins
      | cons character path =>
          obtain ⟨first, others⟩ := not_or.mp (mt List.mem_cons.mpr noSlash)
          rw [withSlashes, List.map_cons, List.cons_prefix_cons] at begins
          obtain ⟨same, begins⟩ := begins
          split at same
          next => exact absurd same.symm first
          next => exact List.cons_prefix_cons.mpr ⟨same, inductionHypothesis others begins⟩

theorem hasDrive_iff : hasDrive path = true ↔ ∃ letter rest, path = letter :: ':' :: rest ∧
    isLetter letter = true ∧ ∀ next ∈ rest.head?, next = '/' ∨ next = '\\' := by
  rw [hasDrive.eq_def]
  split
  next letter => simp
  next letter next rest _ => simp
  next short long =>
    simp only [Bool.false_eq_true, false_iff, not_exists, not_and]
    rintro letter (_ | ⟨next, rest⟩) rfl
    · exact absurd rfl (short letter)
    · exact absurd rfl (long letter next rest)

theorem not_prefix_of_hasDrive {start : List Char} {first : Char}
    (notLetter : isLetter first = false) (drive : hasDrive path = true) :
    ¬first :: start <+: path := by
  obtain ⟨letter, rest, rfl, isLetter, -⟩ := hasDrive_iff.mp drive
  apply not_prefix_of_ne
  rintro rfl
  rw [isLetter] at notLetter
  cases notLetter

theorem hasDrive_withSlashes (path : List Char) : hasDrive (withSlashes path) = hasDrive path := by
  rw [Bool.eq_iff_iff, hasDrive_iff, hasDrive_iff]
  constructor
  · rintro ⟨letter, rest, same, isLetter, next⟩
    rw [withSlashes, List.map_eq_cons_iff] at same
    obtain ⟨first, path, rfl, rfl, same⟩ := same
    rw [List.map_eq_cons_iff] at same
    obtain ⟨second, path, rfl, colon, rfl⟩ := same
    -- A slash is neither a letter nor a colon, so both characters are as they were.
    split at colon
    next => cases colon
    next =>
      split at isLetter
      next => cases isLetter
      next =>
        refine ⟨first, path, by rw [colon], isLetter, ?_⟩
        intro third found
        have kept := next _ (List.head?_map ▸ Option.mem_map_of_mem _ found)
        by_cases backslash : third = '\\'
        · exact .inr backslash
        · rwa [if_neg backslash] at kept
  · rintro ⟨letter, rest, rfl, isLetter, next⟩
    refine ⟨letter, withSlashes rest, ?_, isLetter, ?_⟩
    · have notBackslash : letter ≠ '\\' := by
        rintro rfl
        cases isLetter
      rw [withSlashes, List.map_cons, List.map_cons, if_neg notBackslash]
      rfl
    · intro third found
      rw [withSlashes, List.head?_map, Option.mem_def, Option.map_eq_some_iff] at found
      obtain ⟨third, found, rfl⟩ := found
      cases next third found with
      | inl slash => rw [slash]; exact .inl rfl
      | inr backslash => rw [backslash]; exact .inl rfl

theorem solid_withSlashes (ends : ∀ character ∈ path.getLast?, isBlank character = false) :
    ∀ character ∈ (withSlashes path).getLast?, isBlank character = false := by
  intro character last
  rw [withSlashes, List.getLast?_map, Option.mem_def, Option.map_eq_some_iff] at last
  obtain ⟨other, last, rfl⟩ := last
  split
  next => decide
  next => exact ends other last

/-! ### What an address names -/

/-- What stands after the scheme with two slashes, or else after the scheme, or else all. -/
def named (url : List Char) : List Char :=
  (rest? schemeWithSlashes url).getD ((rest? scheme url).getD url)

/-- The file of what an address names, up to the parameters and with slashes. -/
def fileOf? (part : List Char) : Option (List Char) :=
  if before '?' part = [] then none else some (withSlashes (before '?' part))

theorem named_slashes (path : List Char) : named (schemeWithSlashes ++ path) = path := by
  rw [named, rest?_append, Option.getD_some]

theorem named_scheme (noSlashes : ¬['/', '/'] <+: path) : named (scheme ++ path) = path := by
  rw [named, rest?_eq_none_iff.mpr (mt slashes_prefix_scheme_append.mp noSlashes), rest?_append,
    Option.getD_none, Option.getD_some]

theorem named_bare (noScheme : ¬scheme <+: url) : named url = url := by
  rw [named, rest?_eq_none_iff.mpr (mt scheme_prefix_of_slashes noScheme),
    rest?_eq_none_iff.mpr noScheme, Option.getD_none, Option.getD_none]

/-- An address has one of three beginnings before what it names. -/
theorem named_cases (url : List Char) :
    url = schemeWithSlashes ++ named url ∨
      url = scheme ++ named url ∧ ¬['/', '/'] <+: named url ∨
      named url = url ∧ ¬scheme <+: url := by
  by_cases begins : scheme <+: url
  · obtain ⟨path, rfl⟩ := begins
    by_cases slashes : ['/', '/'] <+: path
    · obtain ⟨path, rfl⟩ := slashes
      rw [← List.append_assoc, ← schemeWithSlashes_eq, named_slashes]
      exact .inl rfl
    · rw [named_scheme slashes]
      exact .inr (.inl ⟨rfl, slashes⟩)
  · exact .inr (.inr ⟨named_bare begins, begins⟩)

theorem fileOf?_withSlashes (part : List Char) : fileOf? (withSlashes part) = fileOf? part := by
  rw [fileOf?, before_withSlashes, withSlashes_withSlashes]
  simp only [withSlashes_eq_nil]
  rfl

theorem path?_map_withSlashes (url : List Char) :
    (path? url).map withSlashes = fileOf? (withoutScheme url) := by
  rw [path?, fileOf?]
  simp only [List.isEmpty_iff]
  split
  next => rfl
  next => rfl

/-! ### Settling by cases -/

theorem settled_of_nil (none : trim raw = []) : settled raw = usual := by
  simp only [settled, none, List.isEmpty_nil, if_true]

theorem settled_of_memory (begins : memory <+: trim raw) : settled raw = trim raw := by
  have filled : trim raw ≠ [] := by
    intro none
    rw [none, List.prefix_nil] at begins
    cases begins
  simp only [settled, List.isEmpty_iff, filled, List.isPrefixOf_iff_prefix, begins, if_false,
    if_true]

section

variable (filled : trim raw ≠ []) (noMemory : ¬memory <+: trim raw)
include filled noMemory

theorem settled_of_slashes (whole : trim raw = schemeWithSlashes ++ path) :
    settled raw = if hasDrive path then scheme ++ withSlashes path else trim raw := by
  have found : rest? schemeWithSlashes (trim raw) = some path := by rw [whole, rest?_append]
  simp only [settled, List.isEmpty_iff, filled, List.isPrefixOf_iff_prefix, noMemory, found,
    if_false]

theorem settled_of_foreign (noSlashes : ¬schemeWithSlashes <+: trim raw)
    (within : "://".toList <:+: trim raw) : settled raw = trim raw := by
  simp only [settled, List.isEmpty_iff, filled, List.isPrefixOf_iff_prefix, noMemory,
    rest?_eq_none_iff.mpr noSlashes, hasWithin_iff.mpr within, if_false, if_true]

theorem settled_of_bare (noSlashes : ¬schemeWithSlashes <+: trim raw)
    (within : ¬"://".toList <:+: trim raw) :
    settled raw =
      if hasDrive (named (trim raw)) then scheme ++ withSlashes (named (trim raw))
      else schemeWithSlashes ++ withSlashes (named (trim raw)) := by
  have none := rest?_eq_none_iff.mpr noSlashes
  simp only [settled, List.isEmpty_iff, filled, List.isPrefixOf_iff_prefix, noMemory, none,
    mt hasWithin_iff.mp within, if_false, Bool.false_eq_true, hasDrive_withSlashes, named,
    Option.getD_none]

end

/-! ### The forms of settled addresses -/

/-- The four forms of settled addresses. -/
inductive IsSettled : List Char → Prop where
  | memory (url : List Char) (begins : memory <+: url) : IsSettled url
  | foreign (url : List Char) (noSlashes : ¬schemeWithSlashes <+: url)
      (within : "://".toList <:+: url) : IsSettled url
  | plain (path : List Char) (noDrive : hasDrive path = false) :
      IsSettled (schemeWithSlashes ++ path)
  | drive (path : List Char) (drive : hasDrive path = true) (slashes : withSlashes path = path) :
      IsSettled (scheme ++ path)

namespace IsSettled

theorem ne_nil (isSettled : IsSettled url) : url ≠ [] := by
  rintro rfl
  generalize empty : ([] : List Char) = url at isSettled
  cases isSettled with
  | memory _ begins =>
      rw [← empty, List.prefix_nil] at begins
      cases begins
  | foreign _ _ within =>
      rw [← empty, List.infix_nil] at within
      cases within
  | plain path _ => cases empty
  | drive path _ _ => cases empty

theorem settled_eq (isSettled : IsSettled url) (trimmed : trim url = url) : settled url = url := by
  have filled : trim url ≠ [] := trimmed.symm ▸ isSettled.ne_nil
  by_cases begins : Url.memory <+: trim url
  · rw [settled_of_memory begins, trimmed]
  cases isSettled with
  | memory url memory => exact absurd (trimmed.symm ▸ memory) begins
  | foreign url noSlashes within =>
      rw [settled_of_foreign filled begins (trimmed.symm ▸ noSlashes) (trimmed.symm ▸ within),
        trimmed]
  | plain path noDrive =>
      rw [settled_of_slashes filled begins trimmed, noDrive, if_neg Bool.false_ne_true, trimmed]
  | drive path drive slashes =>
      have bare : ¬['/', '/'] <+: path := not_prefix_of_hasDrive (by decide) drive
      have noSlashes : ¬schemeWithSlashes <+: trim (scheme ++ path) := by
        rw [trimmed]
        exact mt slashes_prefix_scheme_append.mp bare
      by_cases within : "://".toList <:+: trim (scheme ++ path)
      · rw [settled_of_foreign filled begins noSlashes within, trimmed]
      · rw [settled_of_bare filled begins noSlashes within, trimmed, named_scheme bare, drive,
          if_pos rfl, slashes]

end IsSettled

/-- What settling does to an address. -/
theorem settled_cases (raw : List Char) :
    settled raw = usual ∧ trim raw = [] ∨
      settled raw = trim raw ∧ IsSettled (trim raw) ∨
      settled raw = scheme ++ withSlashes (named (trim raw)) ∧ hasDrive (named (trim raw)) = true ∨
      settled raw = schemeWithSlashes ++ withSlashes (named (trim raw)) ∧
        hasDrive (named (trim raw)) = false := by
  by_cases none : trim raw = []
  · exact .inl ⟨settled_of_nil none, none⟩
  by_cases begins : memory <+: trim raw
  · exact .inr (.inl ⟨settled_of_memory begins, .memory _ begins⟩)
  by_cases slashes : schemeWithSlashes <+: trim raw
  · obtain ⟨path, whole⟩ := slashes
    have same := settled_of_slashes none begins whole.symm
    rw [← whole, named_slashes] at *
    cases drive : hasDrive path with
    | false =>
        rw [drive, if_neg Bool.false_ne_true] at same
        exact .inr (.inl ⟨same, .plain path drive⟩)
    | true =>
        rw [drive, if_pos rfl] at same
        exact .inr (.inr (.inl ⟨same, rfl⟩))
  by_cases within : "://".toList <:+: trim raw
  · exact .inr (.inl ⟨settled_of_foreign none begins slashes within, .foreign _ slashes within⟩)
  have same := settled_of_bare none begins slashes within
  cases drive : hasDrive (named (trim raw)) with
  | false =>
      rw [drive, if_neg Bool.false_ne_true] at same
      exact .inr (.inr (.inr ⟨same, rfl⟩))
  | true =>
      rw [drive, if_pos rfl] at same
      exact .inr (.inr (.inl ⟨same, rfl⟩))

theorem isSettled_settled (raw : List Char) : IsSettled (settled raw) := by
  obtain ⟨same, -⟩ | ⟨same, isSettled⟩ | ⟨same, drive⟩ | ⟨same, noDrive⟩ := settled_cases raw
  · rw [same]
    exact .plain "./data/stockroom.db".toList (by decide)
  · rwa [same]
  · rw [same]
    exact .drive _ ((hasDrive_withSlashes _).trans drive) (withSlashes_withSlashes _)
  · rw [same]
    exact .plain _ ((hasDrive_withSlashes _).trans noDrive)

theorem named_suffix (url : List Char) : named url <:+ url := by
  obtain whole | ⟨whole, -⟩ | ⟨whole, -⟩ := named_cases url
  · exact ⟨schemeWithSlashes, whole.symm⟩
  · exact ⟨scheme, whole.symm⟩
  · rw [whole]

/-- Slashes instead of backslashes leave no blank at the end. -/
theorem trim_append_withSlashes {start : List Char} (trimmed : trim start = start)
    (filled : start ≠ []) (raw : List Char) :
    trim (start ++ withSlashes (named (trim raw))) = start ++ withSlashes (named (trim raw)) := by
  apply trim_of_ends
  · intro character first
    rw [List.head?_append_of_ne_nil _ filled, ← trimmed] at first
    exact solid_of_head_trim start character first
  · have ends : ∀ character ∈ (named (trim raw)).getLast?, isBlank character = false := by
      intro character last
      obtain ⟨before, whole⟩ := named_suffix (trim raw)
      apply solid_of_getLast_trim raw character
      rw [← whole, List.getLast?_append, last, Option.some_or]
      rfl
    intro character last
    rw [List.getLast?_append, Option.mem_def, Option.or_eq_some_iff] at last
    obtain last | ⟨-, last⟩ := last
    · exact solid_withSlashes ends character last
    · rw [← trimmed] at last
      exact solid_of_getLast_trim start character last

theorem trim_settled (raw : List Char) : trim (settled raw) = settled raw := by
  obtain ⟨same, -⟩ | ⟨same, -⟩ | ⟨same, -⟩ | ⟨same, -⟩ := settled_cases raw
  · rw [same]
    decide
  · rw [same, trim_trim]
  · rw [same]
    exact trim_append_withSlashes (by decide) (by decide) raw
  · rw [same]
    exact trim_append_withSlashes (by decide) (by decide) raw

theorem settled_settled (raw : List Char) : settled (settled raw) = settled raw :=
  (isSettled_settled raw).settled_eq (trim_settled raw)

/-! ### The file of a settled address -/

theorem withoutScheme_slashes (once : ¬scheme <+: path) :
    withoutScheme (schemeWithSlashes ++ path) = path := by
  have one : withoutLeading "sqlite://" (schemeWithSlashes ++ path) =
      withoutLeading "sqlite://" path := withoutLeading_append "sqlite://" path
  have noMore : withoutLeading "sqlite://" path = path :=
    withoutLeading_of_not_prefix (mt scheme_prefix_of_slashes once)
  rw [withoutScheme, one, noMore]
  exact withoutLeading_of_not_prefix once

theorem withoutScheme_scheme (noSlashes : ¬['/', '/'] <+: path) (once : ¬scheme <+: path) :
    withoutScheme (scheme ++ path) = path := by
  have none : withoutLeading "sqlite://" (scheme ++ path) = scheme ++ path :=
    withoutLeading_of_not_prefix (mt slashes_prefix_scheme_append.mp noSlashes)
  have one : withoutLeading "sqlite:" (scheme ++ path) = withoutLeading "sqlite:" path :=
    withoutLeading_append "sqlite:" path
  rw [withoutScheme, none, one]
  exact withoutLeading_of_not_prefix once

theorem preparedFile?_of_begins (noMemory : ¬memory <+: url) (ours : scheme <+: url) :
    preparedFile? url = path? url := by
  rw [preparedFile?, if_neg]
  rw [Bool.or_eq_true, List.isPrefixOf_iff_prefix, Bool.not_eq_true', ← Bool.not_eq_true,
    List.isPrefixOf_iff_prefix]
  exact not_or.mpr ⟨noMemory, not_not.mpr ours⟩

theorem preparedFile?_slashes (once : ¬scheme <+: path) :
    (preparedFile? (schemeWithSlashes ++ path)).map withSlashes = fileOf? path := by
  rw [preparedFile?_of_begins not_memory_prefix_slashes
    (scheme_prefix_of_slashes (List.prefix_append _ _)), path?_map_withSlashes,
    withoutScheme_slashes once]

theorem preparedFile?_scheme (noMemory : ¬memory <+: scheme ++ path)
    (noSlashes : ¬['/', '/'] <+: path) (once : ¬scheme <+: path) :
    (preparedFile? (scheme ++ path)).map withSlashes = fileOf? path := by
  rw [preparedFile?_of_begins noMemory (List.prefix_append _ _), path?_map_withSlashes,
    withoutScheme_scheme noSlashes once]

/-- What an address of the scheme names is its file, unless the scheme is written twice. -/
theorem preparedFile?_of_scheme (noMemory : ¬memory <+: url) (ours : scheme <+: url)
    (once : ¬scheme <+: named url) : (preparedFile? url).map withSlashes = fileOf? (named url) := by
  obtain whole | ⟨whole, noSlashes⟩ | ⟨-, other⟩ := named_cases url
  · rw [congrArg preparedFile? whole, preparedFile?_slashes once]
  · rw [whole] at noMemory
    rw [congrArg preparedFile? whole, preparedFile?_scheme noMemory noSlashes once]
  · exact absurd ours other

theorem preparedFile?_settled (filled : trim raw ≠ []) (noMemory : ¬memory <+: trim raw)
    (ours : scheme <+: trim raw ∨ ¬"://".toList <:+: trim raw)
    (once : ¬scheme <+: named (trim raw)) :
    (preparedFile? (settled raw)).map withSlashes = fileOf? (named (trim raw)) := by
  have onceAfter : ¬scheme <+: withSlashes (named (trim raw)) :=
    mt (prefix_of_prefix_withSlashes (by decide)) once
  obtain ⟨-, none⟩ | ⟨same, isSettled⟩ | ⟨same, drive⟩ | ⟨same, -⟩ := settled_cases raw
  · exact absurd none filled
  · rw [same]
    refine preparedFile?_of_scheme noMemory ?_ once
    generalize trim raw = url at *
    cases isSettled with
    | memory _ begins => exact absurd begins noMemory
    | foreign _ _ within => exact ours.resolve_right (not_not.mpr within)
    | plain path _ => exact scheme_prefix_of_slashes (List.prefix_append _ _)
    | drive path _ _ => exact List.prefix_append _ _
  · have driveAfter := (hasDrive_withSlashes _).trans drive
    rw [same, preparedFile?_scheme _ (not_prefix_of_hasDrive (by decide) driveAfter) onceAfter,
      fileOf?_withSlashes]
    exact mt memory_prefix_scheme_append.mp (not_prefix_of_hasDrive (by decide) driveAfter)
  · rw [same, preparedFile?_slashes onceAfter, fileOf?_withSlashes]

/-- What settling comes to: once is enough, and the file is the one that the address named. -/
structure SettlesWell (raw : List Char) : Prop where
  again : settled (settled raw) = settled raw
  /-- Neither memory nor another scheme is meant, and the scheme is not written twice. -/
  file : trim raw ≠ [] → ¬memory <+: trim raw →
    (scheme <+: trim raw ∨ ¬"://".toList <:+: trim raw) → ¬scheme <+: named (trim raw) →
    (preparedFile? (settled raw)).map withSlashes = fileOf? (named (trim raw))

theorem settlesWell (raw : List Char) : SettlesWell raw where
  again := settled_settled raw
  file := preparedFile?_settled

theorem settlesWell_drive :
    settled (settled "sqlite:C:\\depot\\a.db?mode=rwc".toList) =
        settled "sqlite:C:\\depot\\a.db?mode=rwc".toList ∧
      (preparedFile? (settled "sqlite:C:\\depot\\a.db?mode=rwc".toList)).map withSlashes =
        some "C:/depot/a.db".toList := by
  have well := settlesWell "sqlite:C:\\depot\\a.db?mode=rwc".toList
  exact ⟨well.again, well.file (by decide) (by decide) (.inl (by decide)) (by decide)⟩

end Depot.Database.Url
