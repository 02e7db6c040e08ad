import Brunomnia.Library.Runs
import Brunomnia.ProjectFolder.Folder

/-!
# What a write leaves

Whatever a call writes, also one that fails half way, is a resource in the file that is named
after it. After a call that succeeds, the files of resources are its own, and those that neither
it nor the last manifest knew.
-/

namespace Brunomnia.ProjectFolder

open Library

variable {yaml : Yaml} {folder : Folder} {workspace : Json}

/-! ## The files of a workspace -/

theorem kind_eq_of_directory {kind other : ResourceKind} (kindMem : kind ∈ resourceKinds)
    (otherMem : other ∈ resourceKinds) (same : kind.directory = other.directory) :
    kind = other := by
  have distinct : ∀ kind ∈ resourceKinds, ∀ other ∈ resourceKinds,
      kind.directory = other.directory → kind = other := by decide
  exact distinct kind kindMem other otherMem same

theorem projectFile_not_resource {kind : ResourceKind} (kindMem : kind ∈ resourceKinds) :
    kind.directory ≠ projectFile.directory := by
  have apart : ∀ kind ∈ resourceKinds, kind.directory ≠ projectFile.directory := by decide
  exact apart kind kindMem

theorem isManaged_of_kind {kind : ResourceKind} (kindMem : kind ∈ resourceKinds)
    {path : FilePath} (directory : path.directory = kind.directory) : isManaged path = true := by
  have managed : ∀ kind ∈ resourceKinds, isManaged ⟨kind.directory, ""⟩ = true := by decide
  rw [← managed kind kindMem, isManaged, isManaged, directory]

theorem mem_projectValues {file : FilePath × Json} :
    file ∈ projectValues workspace ↔
      file = (projectFile, objectSubset workspace metadataKeys) ∨
        ∃ kind ∈ resourceKinds, ∃ value ∈ workspace.list kind.key,
          file = (kind.path value, value) := by
  simp only [projectValues, List.mem_cons, List.mem_flatMap, List.mem_map, eq_comm]

/-- The value in a file of a resource directory is a resource of its kind. -/
theorem mem_projectValues_kind {kind : ResourceKind} (kindMem : kind ∈ resourceKinds)
    {file : FilePath × Json} (fileMem : file ∈ projectValues workspace)
    (directory : file.1.directory = kind.directory) :
    file.2 ∈ workspace.list kind.key ∧ file.1 = kind.path file.2 := by
  rcases mem_projectValues.mp fileMem with rfl | ⟨other, otherMem, value, valueMem, rfl⟩
  · exact absurd directory.symm (projectFile_not_resource kindMem)
  · obtain rfl := kind_eq_of_directory otherMem kindMem directory
    exact ⟨valueMem, rfl⟩

structure FilesSpec (yaml : Yaml) (workspace : Json) (files : List (FilePath × String)) :
    Prop where
  nodup : (files.map Prod.fst).Nodup
  mem_iff : ∀ file, file ∈ files ↔ ∃ value,
    lastValue (projectValues workspace) file.1 = some value ∧ yaml.toText value = .ok file.2

/-- The text of a value that can be written. -/
def Yaml.text (yaml : Yaml) (value : Json) : String :=
  (yaml.toText value).toOption.getD ""

theorem texts_eq {values : List (FilePath × Json)} {texts : List (FilePath × String)}
    (ok : (values.mapM fun file => (yaml.toText file.2).map fun text => (file.1, text)) =
      .ok texts) :
    (∀ file ∈ values, yaml.toText file.2 = .ok (yaml.text file.2)) ∧
      texts = values.map fun file => (file.1, yaml.text file.2) := by
  have related := mapM_eq_ok_iff.mp ok
  clear ok
  induction related with
  | nil => exact ⟨by simp, rfl⟩
  | @cons file written values texts head _ ih =>
      rcases map_eq_ok.mp head with ⟨text, textOk, rfl⟩
      have textEq : yaml.text file.2 = text := by simp [Yaml.text, textOk, Except.toOption]
      rw [List.forall_mem_cons, textEq]
      refine ⟨⟨textOk, ih.1⟩, ?_⟩
      rw [List.map_cons, textEq, ih.2]

theorem projectFiles_spec {files : List (FilePath × String)}
    (ok : projectFiles yaml workspace = .ok files) : FilesSpec yaml workspace files := by
  simp only [projectFiles] at ok
  rcases map_eq_ok.mp ok with ⟨texts, textsOk, rfl⟩
  rcases texts_eq textsOk with ⟨written, rfl⟩
  have sorted := List.perm_insertionSort
    (fun left right : FilePath × String => left.1.text ≤ right.1.text)
    (orderedMap ((projectValues workspace).map fun file => (file.1, yaml.text file.2)))
  constructor
  · exact (sorted.map Prod.fst).nodup_iff.mpr (nodup_orderedMap _)
  · intro file
    rw [sorted.mem_iff, mem_orderedMap_iff, lastValue_map, Option.map_eq_some_iff]
    apply exists_congr
    intro value
    apply and_congr_right
    intro found
    have toText := written _ (mem_of_lastValue found)
    simp only at toText
    rw [toText, Except.ok.injEq]

/-! ## Entries after a call -/

/-- A file of a resource directory holds a resource that it is named after. -/
def IsPlaced (yaml : Yaml) (entry : FilePath × String) : Prop :=
  ∀ kind ∈ resourceKinds, entry.1.directory = kind.directory →
    ∃ value, entry.1 = kind.path value ∧ yaml.toText value = .ok entry.2

theorem FilesSpec.isPlaced {files : List (FilePath × String)}
    (spec : FilesSpec yaml workspace files) {file : FilePath × String} (fileMem : file ∈ files) :
    IsPlaced yaml file := by
  intro kind kindMem directory
  rcases (spec.mem_iff file).mp fileMem with ⟨value, found, textOk⟩
  have placed := mem_projectValues_kind kindMem (mem_of_lastValue found) directory
  exact ⟨value, placed.2, textOk⟩

theorem isPlaced_manifest (yaml : Yaml) (text : String) : IsPlaced yaml (manifestFile, text) := by
  intro kind kindMem directory
  exact absurd directory.symm (projectFile_not_resource kindMem)

/-- A call leaves the folder as it was, or takes the first of its changes, or all of them. -/
theorem writeProject_cases {fault : Option FileFault} {after : Folder}
    {outcome : Except String ProjectWriteOutput}
    (call : writeProject yaml folder workspace fault = (after, outcome)) :
    (after = folder ∧ ∃ message, outcome = .error message) ∨
      ∃ files, projectFiles yaml workspace = .ok files ∧
        ((∃ done, after =
            ((fileChanges (readManifest yaml folder) files).take done).foldl Store.apply folder ∧
          ∃ message, outcome = .error message) ∨
        ∃ manifest, yaml.manifestText ⟨1, files.map Prod.fst⟩ = .ok manifest ∧
          after = ((fileChanges (readManifest yaml folder) files).foldl Store.apply folder).write
            manifestFile manifest) := by
  simp only [writeProject] at call
  split at call
  case isTrue =>
    cases call
    exact .inl ⟨rfl, _, rfl⟩
  case isFalse =>
    split at call
    case h_1 =>
      cases call
      exact .inl ⟨rfl, _, rfl⟩
    case h_2 files filesOk =>
      refine .inr ⟨files, filesOk, ?_⟩
      split at call
      case h_1 =>
        cases call
        exact .inl ⟨_, rfl, _, rfl⟩
      case h_2 =>
        have all : (fileChanges (readManifest yaml folder) files).take
            (fileChanges (readManifest yaml folder) files).length =
              fileChanges (readManifest yaml folder) files := List.take_length
        split at call
        case h_1 =>
          cases call
          exact .inl ⟨(fileChanges (readManifest yaml folder) files).length, by rw [all], _, rfl⟩
        case h_2 manifest manifestOk =>
          split at call
          case h_1 =>
            cases call
            exact .inl ⟨(fileChanges (readManifest yaml folder) files).length, by rw [all], _, rfl⟩
          case h_2 =>
            cases call
            exact .inr ⟨manifest, manifestOk, rfl⟩

theorem isPlaced_applied {files : List (FilePath × String)}
    (spec : FilesSpec yaml workspace files)
    (placed : ∀ entry ∈ folder.entries, IsPlaced yaml entry) {previous : ProjectManifest}
    {changes : List (Store.Change FilePath String)}
    (subset : changes ⊆ fileChanges previous files) :
    ∀ entry ∈ (changes.foldl Store.apply folder).entries, IsPlaced yaml entry := by
  apply Store.forall_mem_applied changes placed
  intro path text writeMem
  have inChanges := subset writeMem
  simp only [fileChanges, List.mem_append, List.mem_map, reduceCtorEq, and_false, exists_false,
    Store.Change.write.injEq, false_or] at inChanges
  rcases inChanges with ⟨file, fileMem, rfl, rfl⟩
  exact spec.isPlaced fileMem

/-- Whatever happens to a call, resources stay in the files that are named after them. -/
theorem writeProject_isPlaced {fault : Option FileFault}
    (placed : ∀ entry ∈ folder.entries, IsPlaced yaml entry) :
    ∀ entry ∈ (writeProject yaml folder workspace fault).1.entries, IsPlaced yaml entry := by
  rcases writeProject_cases (Prod.eta (writeProject yaml folder workspace fault)).symm with
    ⟨same, _⟩ | ⟨files, filesOk, ⟨done, after, _⟩ | ⟨manifest, _, after⟩⟩
  · rw [same]
    exact placed
  · rw [after]
    exact isPlaced_applied (projectFiles_spec filesOk) placed (List.take_subset _ _)
  · rw [after]
    intro entry entryMem
    rcases Store.mem_write.mp entryMem with rfl | ⟨entryMem, _⟩
    · exact isPlaced_manifest yaml manifest
    · exact isPlaced_applied (projectFiles_spec filesOk) placed (List.Subset.refl _) entry entryMem

/-- What a call that succeeds leaves in the resource directories. -/
theorem mem_written_kind {files : List (FilePath × String)}
    (spec : FilesSpec yaml workspace files) {previous : ProjectManifest} {manifest : String}
    {entry : FilePath × String} {kind : ResourceKind} (kindMem : kind ∈ resourceKinds)
    (directory : entry.1.directory = kind.directory) :
    entry ∈ (((fileChanges previous files).foldl Store.apply folder).write
        manifestFile manifest).entries ↔
      entry ∈ files ∨ entry ∈ folder.entries ∧ entry.1 ∉ files.map Prod.fst ∧
        entry.1 ∉ previous.files := by
  have notManifest : entry.1 ≠ manifestFile := by
    intro same
    rw [same] at directory
    exact projectFile_not_resource kindMem directory.symm
  have managed : isManaged entry.1 = true := isManaged_of_kind kindMem directory
  have notEntry : entry ≠ (manifestFile, manifest) := by
    rintro rfl
    exact notManifest rfl
  rw [Store.mem_write, fileChanges, List.foldl_append, Store.mem_written spec.nodup,
    Store.mem_removed, List.mem_filter]
  simp only [notEntry, notManifest, managed, false_or, ne_eq, not_false_eq_true, and_true,
    decide_eq_true_eq]
  tauto

end Brunomnia.ProjectFolder
