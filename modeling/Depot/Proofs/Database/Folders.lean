import Depot.Database.Opening
import Depot.Proofs.Database.Address
import Depot.Proofs.Files.Directories

/-!
Contract: the directories that are made when a database is opened are those that were prepared.

Preparing and opening read the file of an address in two ways. The readings agree on every
settled address, except that preparing holds whatever begins as memory does for memory, and
opening only the bare address. Where they agree, the same directories are made, and opening
finds them all there.

Owns: where the two readings agree, and what is left to make after preparing.
Does not own: what the file of an address is (`Depot.Proofs.Database.Address`).
-/

namespace Depot.Database

open Text

/-! ### Directories that are made twice -/

/-- To make the directory of no name is to make nothing, so that passing it over before is
no difference. -/
theorem prepareFolder_eq {α : Type} (files : Files α) (url : List Char)
    (file? : Option (List Char)) : prepareFolder files url file? = makeFolder files url file? := by
  unfold prepareFolder
  split
  next here =>
    obtain ⟨file, rfl, parent⟩ := Option.bind_eq_some_iff.mp here
    have nothing : files.ensurePath [] = (files, .ok ()) := rfl
    simp only [makeFolder, parent, nothing]
  next => rfl

theorem makeFolder_again {α : Type} {files after : Files α} {url : List Char}
    {file? : Option (List Char)} (made : makeFolder files url file? = (after, .ok ())) :
    makeFolder after url file? = (after, .ok ()) := by
  cases file? with
  | none => rfl
  | some file =>
      cases parent : Files.Path.parentText? file with
      | none => simp only [makeFolder, parent]
      | some folder =>
          have ensured : files.ensurePath folder = (after, .ok ()) := by
            simp only [makeFolder, parent] at made
            split at made
            next between ensured =>
              cases made
              exact ensured
            next => cases made
          simp only [makeFolder, parent, Files.ensurePath_again ensured]

theorem makeFolder_of_prepare {α : Type} {files after : Files α} {raw url : String}
    (prepared : prepare files raw = (after, .ok url)) :
    url.toList = Url.settled raw.toList ∧
      makeFolder files (Url.settled raw.toList) (Url.preparedFile? (Url.settled raw.toList)) =
        (after, .ok ()) := by
  cases made : makeFolder files (Url.settled raw.toList)
      (Url.preparedFile? (Url.settled raw.toList)) with
  | mk between answer =>
      simp only [prepare, prepareFolder_eq, made] at prepared
      cases answer with
      | error fault => cases prepared
      | ok done =>
          cases prepared
          exact ⟨String.toList_ofList, rfl⟩

namespace Url

variable {url rest raw : List Char}

/-! ### Where the readings agree -/

theorem memory_prefix_settled : memory <+: settled raw ↔ memory <+: trim raw := by
  constructor
  · intro begins
    obtain ⟨same, -⟩ | ⟨same, -⟩ | ⟨same, drive⟩ | ⟨same, -⟩ := settled_cases raw
    · have bare : ¬memory <+: usual := by decide
      rw [same] at begins
      exact absurd begins bare
    · rwa [same] at begins
    · rw [same, memory_prefix_scheme_append] at begins
      have driveAfter := (hasDrive_withSlashes _).trans drive
      exact absurd begins (not_prefix_of_hasDrive (by decide) driveAfter)
    · rw [same] at begins
      exact absurd begins not_memory_prefix_slashes
  · intro begins
    rwa [settled_of_memory begins]

/-- Opening takes what begins as memory does, but goes on, for the name of a file. -/
theorem openedFile?_memory_append (more : rest ≠ []) :
    openedFile? (memory ++ rest) = some (":memory:".toList ++ before '?' rest) := by
  have goesOn : memory ++ rest ≠ memory := mt List.append_right_eq_self.mp more
  have ours : scheme <+: memory ++ rest := by
    rw [memory_eq, List.append_assoc]
    exact List.prefix_append _ _
  have named : withoutScheme (memory ++ rest) = ":memory:".toList ++ rest := by
    rw [memory_eq, List.append_assoc]
    exact withoutScheme_scheme (not_prefix_of_ne (by decide)) (not_prefix_of_ne (by decide))
  have file : before '?' (":memory:".toList ++ rest) = ":memory:".toList ++ before '?' rest := rfl
  rw [openedFile?, if_neg]
  · rw [path?, named, file]
    rfl
  · simpa [goesOn] using ours

theorem preparedFile?_of_memory (begins : memory <+: url) : preparedFile? url = none := by
  rw [preparedFile?, if_pos]
  rw [Bool.or_eq_true, List.isPrefixOf_iff_prefix]
  exact .inl begins

theorem openedFile?_eq_preparedFile?_iff :
    openedFile? url = preparedFile? url ↔ (memory <+: url → url = memory) := by
  constructor
  · rintro same ⟨rest, rfl⟩
    rw [preparedFile?_of_memory (List.prefix_append _ _)] at same
    by_contra other
    have more : rest ≠ [] := by
      rintro rfl
      exact other (List.append_nil _)
    rw [openedFile?_memory_append more] at same
    cases same
  · intro bare
    by_cases begins : memory <+: url
    · rw [bare begins]
      rfl
    · have other : url ≠ memory := by
        rintro rfl
        exact begins (List.prefix_refl _)
      rw [openedFile?, preparedFile?, decide_eq_false other,
        Bool.eq_false_iff.mpr (mt List.isPrefixOf_iff_prefix.mp begins)]

end Url

/-- Preparing an address and opening it come to the same directories. -/
structure Agrees (raw : String) : Prop where
  file : Url.openedFile? (Url.settled raw.toList) = Url.preparedFile? (Url.settled raw.toList)
  folders : ∀ {α : Type} (files : Files α),
    makeFolder files (Url.settled raw.toList) (Url.openedFile? (Url.settled raw.toList)) =
      prepareFolder files (Url.settled raw.toList) (Url.preparedFile? (Url.settled raw.toList))
  nothingLeft : ∀ {α : Type} (files after : Files α) (url : String),
    prepare files raw = (after, .ok url) →
      makeFolder after url.toList (Url.openedFile? url.toList) = (after, .ok ())

/-- The readings agree but for addresses that begin as memory does and go on. -/
theorem agrees_iff (raw : String) :
    Agrees raw ↔ (Url.memory <+: trim raw.toList → trim raw.toList = Url.memory) := by
  constructor
  · intro agrees begins
    rw [← Url.settled_of_memory begins]
    exact Url.openedFile?_eq_preparedFile?_iff.mp agrees.file (Url.memory_prefix_settled.mpr begins)
  · intro bare
    have same : Url.openedFile? (Url.settled raw.toList) =
        Url.preparedFile? (Url.settled raw.toList) := by
      rw [Url.openedFile?_eq_preparedFile?_iff, Url.memory_prefix_settled]
      intro begins
      rw [Url.settled_of_memory begins, bare begins]
    refine ⟨same, fun files => by rw [same, prepareFolder_eq], ?_⟩
    intro α files after url prepared
    obtain ⟨settled, made⟩ := makeFolder_of_prepare prepared
    rw [settled, same]
    exact makeFolder_again made

/-- An address that begins as memory does and goes on: nothing is prepared for it, and a
directory is made when it is opened. -/
theorem not_agrees_shelf :
    ¬Agrees "sqlite::memory:/shelf/depot.db" ∧
      prepare (Files.empty : Files Content) "sqlite::memory:/shelf/depot.db" =
        (Files.empty, .ok "sqlite::memory:/shelf/depot.db") ∧
      (opened Files.empty "sqlite::memory:/shelf/depot.db").1.isDirectoryAt
          ["home", ":memory:", "shelf"] = true := by
  have settled : Url.settled "sqlite::memory:/shelf/depot.db".toList =
      Url.memory ++ "/shelf/depot.db".toList := by decide
  have file : Url.openedFile? "sqlite::memory:/shelf/depot.db".toList =
      some ":memory:/shelf/depot.db".toList :=
    Url.openedFile?_memory_append (by decide)
  refine ⟨?_, ?_, ?_⟩
  · intro agrees
    have same := agrees.file
    rw [settled, Url.openedFile?_eq_preparedFile?_iff] at same
    exact absurd (same (List.prefix_append _ _)) (by decide)
  · rw [prepare, settled]
    rfl
  · rw [opened, changeOr, file]
    decide +kernel

end Depot.Database
