import Brunomnia.Library.Rewriting
import Brunomnia.ProjectFolder.RoundTrip

/-!
# Writing again

A call that fails half way leaves some of its changes behind, and the manifest of the call before
it. So the next call for the same workspace finds the same changes to make, and ends with the
files that a call leaves which never failed. After a call that succeeds, there is nothing left to
change.
-/

namespace Brunomnia.ProjectFolder

open Library

variable {yaml : Yaml} {folder : Folder} {workspace : Json}

/-- Two folders have the same texts under all paths. -/
def SameFiles (left right : Folder) : Prop :=
  ∀ path, left.read path = right.read path

/-! ## The changes of a call -/

/-- The changes of a call that writes its manifest, if that can be spelled. -/
def callChanges (yaml : Yaml) (previous : ProjectManifest) (files : List (FilePath × String)) :
    List (Store.Change FilePath String) :=
  fileChanges previous files ++
    ((yaml.manifestText ⟨1, files.map Prod.fst⟩).toOption.map
      fun manifest => .write manifestFile manifest).toList

theorem writeProject_changes {files : List (FilePath × String)}
    (isObject : workspace.isObject = true) (filesOk : projectFiles yaml workspace = .ok files) :
    (writeProject yaml folder workspace none).1 =
      (callChanges yaml (readManifest yaml folder) files).foldl Store.apply folder := by
  rw [callChanges, List.foldl_append]
  cases spelled : yaml.manifestText ⟨1, files.map Prod.fst⟩ with
  | error message => simp [writeProject, isObject, filesOk, spelled, Except.toOption]
  | ok manifest =>
      simp [writeProject, isObject, filesOk, spelled, Except.toOption, Store.apply]

theorem manifestFile_notMem {files : List (FilePath × String)}
    (filesOk : projectFiles yaml workspace = .ok files) : manifestFile ∉ files.map Prod.fst := by
  intro listed
  have values :=
    ((projectFiles_spec filesOk).path_mem_iff (toText_of_projectFiles filesOk)).mp listed
  rcases List.mem_map.mp values with ⟨file, fileMem, isManifest⟩
  rcases mem_projectValues.mp fileMem with rfl | ⟨kind, kindMem, value, _, rfl⟩
  · have different : projectFile ≠ manifestFile := by decide
    exact different isManifest
  · have directory := congrArg FilePath.directory isManifest
    exact projectFile_not_resource kindMem directory

theorem fileChanges_untouched {files : List (FilePath × String)} {previous : ProjectManifest}
    (filesOk : projectFiles yaml workspace = .ok files) (unlisted : manifestFile ∉ previous.files) :
    ∀ change ∈ fileChanges previous files, change.key ≠ manifestFile := by
  intro change changeMem isManifest
  rcases List.mem_append.mp changeMem with removed | written
  · rcases List.mem_map.mp removed with ⟨path, pathMem, rfl⟩
    exact unlisted (isManifest ▸ List.mem_of_mem_filter pathMem)
  · rcases List.mem_map.mp written with ⟨file, fileMem, rfl⟩
    exact manifestFile_notMem filesOk (List.mem_map.mpr ⟨file, fileMem, isManifest⟩)

theorem readManifest_congr {other : Folder}
    (same : other.read manifestFile = folder.read manifestFile) :
    readManifest yaml other = readManifest yaml folder := by
  rw [readManifest, readManifest, same]

theorem readManifest_written {manifest : ProjectManifest} {text : String}
    (spelled : yaml.manifestText manifest = .ok text) :
    readManifest yaml (folder.write manifestFile text) = manifest := by
  rw [readManifest, Store.read_write_self, Option.bind_some, yaml.manifestRoundTrip _ _ spelled]
  rfl

/-- The files that a call removes. -/
def staleFiles (previous : ProjectManifest) (files : List (FilePath × String)) : List FilePath :=
  previous.files.filter fun path => path ∉ files.map Prod.fst ∧ isManaged path

/-- The writes of a call, before it writes the manifest. -/
def fileWrites (files : List (FilePath × String)) : List (Store.Change FilePath String) :=
  files.map fun file => .write file.1 file.2

theorem fileChanges_eq (previous : ProjectManifest) (files : List (FilePath × String)) :
    fileChanges previous files =
      (staleFiles previous files).map Store.Change.remove ++ fileWrites files := rfl

theorem staleFiles_listed (files : List (FilePath × String)) :
    staleFiles ⟨1, files.map Prod.fst⟩ files = [] := by
  apply List.filter_eq_nil_iff.mpr
  intro path pathMem
  simp [pathMem]

theorem callChanges_listed {files : List (FilePath × String)} {manifest : String}
    (spelled : yaml.manifestText ⟨1, files.map Prod.fst⟩ = .ok manifest) :
    callChanges yaml ⟨1, files.map Prod.fst⟩ files =
      fileWrites files ++ [.write manifestFile manifest] := by
  rw [callChanges, fileChanges_eq, staleFiles_listed, spelled]
  rfl

theorem written_eq (previous : ProjectManifest) (files : List (FilePath × String))
    (manifest : String) :
    ((fileChanges previous files).foldl Store.apply folder).write manifestFile manifest =
      (fileWrites files ++ [Store.Change.write manifestFile manifest]).foldl Store.apply
        (((staleFiles previous files).map Store.Change.remove).foldl Store.apply folder) := by
  rw [fileChanges_eq, List.foldl_append, List.foldl_append]
  rfl

/-! ## After a call that failed -/

/-- A call that is made again, whether it failed or not, leaves what it leaves at once. -/
theorem writeProject_again (unlisted : manifestFile ∉ (readManifest yaml folder).files)
    (fault : Option FileFault) :
    SameFiles
      (writeProject yaml (writeProject yaml folder workspace fault).1 workspace none).1
      (writeProject yaml folder workspace none).1 := by
  by_cases isObject : workspace.isObject = true
  case neg =>
    intro path
    simp [writeProject, isObject]
  case pos =>
    rcases writeProject_cases (Prod.eta (writeProject yaml folder workspace fault)).symm with
      ⟨same, _⟩ | ⟨files, filesOk, ⟨done, after, _⟩ | ⟨manifest, spelled, after⟩⟩
    · rw [same]
      exact fun _ => rfl
    · -- the manifest is the one that the call found
      have manifestKept : (writeProject yaml folder workspace fault).1.read manifestFile =
          folder.read manifestFile := by
        rw [after]
        apply Store.read_applied_of_untouched
        intro change changeMem
        exact fileChanges_untouched filesOk unlisted change (List.mem_of_mem_take changeMem)
      rw [writeProject_changes isObject filesOk, writeProject_changes isObject filesOk,
        readManifest_congr manifestKept, after]
      intro path
      apply Store.read_applied_again
      exact List.Subset.trans (List.take_subset _ _) (List.subset_append_left _ _)
    · have manifestRead : readManifest yaml (writeProject yaml folder workspace fault).1 =
          ⟨1, files.map Prod.fst⟩ := by
        rw [after]
        exact readManifest_written spelled
      have done : (writeProject yaml folder workspace none).1 =
          (writeProject yaml folder workspace fault).1 := by
        rw [writeProject_changes isObject filesOk, callChanges, spelled, List.foldl_append, after]
        rfl
      rw [done, writeProject_changes isObject filesOk, manifestRead]
      rw [callChanges_listed spelled, after, written_eq]
      exact fun path => Store.read_applied_again (List.Subset.refl _) _ path

theorem folderAfter_unlisted (yaml : Yaml) (calls : List WriteCall) :
    manifestFile ∉ (readManifest yaml (folderAfter yaml calls)).files := by
  induction calls using List.reverseRecOn with
  | nil => simp [folderAfter, readManifest, Store.read, Store.empty]
  | append_singleton calls call ih =>
      rw [folderAfter, List.foldl_append, List.foldl_cons, List.foldl_nil]
      rw [folderAfter] at ih
      rcases writeProject_cases (Prod.eta (writeProject yaml _ call.workspace call.fault)).symm with
        ⟨same, _⟩ | ⟨files, filesOk, ⟨done, after, _⟩ | ⟨manifest, spelled, after⟩⟩
      · rw [same]
        exact ih
      · rw [after, readManifest_congr]
        · exact ih
        · apply Store.read_applied_of_untouched
          intro change changeMem
          exact fileChanges_untouched filesOk ih change (List.mem_of_mem_take changeMem)
      · rw [after, readManifest_written spelled]
        exact manifestFile_notMem filesOk

/-- However often writing a workspace fails, and wherever it does, writing it once more leaves
the files that are left when it never failed. -/
theorem retries_sameFiles (yaml : Yaml) (calls : List WriteCall) (workspace : Json)
    (faults : List FileFault) :
    SameFiles
      (writeProject yaml
        (folderAfter yaml (calls ++ faults.map fun fault => ⟨workspace, some fault⟩))
        workspace none).1
      (writeProject yaml (folderAfter yaml calls) workspace none).1 := by
  induction faults generalizing calls with
  | nil =>
      rw [List.map_nil, List.append_nil]
      exact fun _ => rfl
  | cons fault faults ih =>
      intro path
      have later := ih (calls ++ [⟨workspace, some fault⟩]) path
      rw [List.append_assoc, List.singleton_append] at later
      rw [List.map_cons, later]
      have first : folderAfter yaml (calls ++ [⟨workspace, some fault⟩]) =
          (writeProject yaml (folderAfter yaml calls) workspace (some fault)).1 := by
        rw [folderAfter, List.foldl_append]
        rfl
      rw [first]
      exact writeProject_again (folderAfter_unlisted yaml calls) (some fault) path

/-! ## After a call that succeeded -/

/-- What a call has found and done that succeeds. -/
structure Written (yaml : Yaml) (folder : Folder) (workspace : Json) (after : Folder)
    (output : ProjectWriteOutput) (files : List (FilePath × String)) (manifest : String) :
    Prop where
  isObject : workspace.isObject = true
  filesOk : projectFiles yaml workspace = .ok files
  spelled : yaml.manifestText ⟨1, files.map Prod.fst⟩ = .ok manifest
  after_eq : after = ((fileChanges (readManifest yaml folder) files).foldl Store.apply folder).write
    manifestFile manifest
  output_eq : output = writeOutput folder (readManifest yaml folder) files manifest

theorem writeProject_written {fault : Option FileFault} {after : Folder}
    {output : ProjectWriteOutput}
    (success : writeProject yaml folder workspace fault = (after, .ok output)) :
    ∃ files manifest, Written yaml folder workspace after output files manifest := by
  simp only [writeProject] at success
  split at success
  case isTrue => cases success
  case isFalse notRejected =>
    have isObject : workspace.isObject = true := by simpa using notRejected
    split at success
    case h_1 => cases success
    case h_2 files filesOk =>
      split at success
      case h_1 => cases success
      case h_2 =>
        split at success
        case h_1 => cases success
        case h_2 manifest spelled =>
          split at success
          case h_1 => cases success
          case h_2 =>
            cases success
            exact ⟨files, manifest, isObject, filesOk, spelled, rfl, rfl⟩

theorem Written.read {after : Folder} {output : ProjectWriteOutput}
    {files : List (FilePath × String)} {manifest : String}
    (written : Written yaml folder workspace after output files manifest) :
    ∀ file ∈ files ++ [(manifestFile, manifest)], after.read file.1 = some file.2 := by
  intro file fileMem
  rw [written.after_eq]
  rcases List.mem_append.mp fileMem with inFiles | isManifest
  · have different : file.1 ≠ manifestFile := fun same =>
      manifestFile_notMem written.filesOk (List.mem_map.mpr ⟨file, inFiles, same⟩)
    rw [Store.read_write_of_ne different, Store.read_eq_some_iff, fileChanges_eq,
      List.foldl_append, fileWrites, Store.mem_written (projectFiles_spec written.filesOk).nodup]
    exact .inl inFiles
  · rw [List.mem_singleton.mp isManifest]
    exact Store.read_write_self _ _ _

/-- A call for a workspace that was just written finds every file as it is to be: it reports
none as written or removed, and leaves the files that there are. -/
theorem rewrite_changesNothing {fault : Option FileFault} {after : Folder}
    {output : ProjectWriteOutput}
    (success : writeProject yaml folder workspace fault = (after, .ok output)) :
    ∃ again, writeProject yaml after workspace none =
        (again, .ok ⟨0, output.filesWritten + output.filesUnchanged, 0⟩) ∧
      SameFiles again after := by
  rcases writeProject_written success with ⟨files, manifest, written⟩
  have manifestRead : readManifest yaml after = ⟨1, files.map Prod.fst⟩ := by
    rw [written.after_eq]
    exact readManifest_written written.spelled
  have unchanged : (files ++ [(manifestFile, manifest)]).countP
      (fun file => after.read file.1 = some file.2) = files.length + 1 := by
    rw [List.countP_eq_length.mpr, List.length_append, List.length_singleton]
    intro file fileMem
    exact decide_eq_true (written.read file fileMem)
  have counted : output.filesWritten + output.filesUnchanged = files.length + 1 := by
    have few := List.countP_le_length (p := fun file => folder.read file.1 = some file.2)
      (l := files ++ [(manifestFile, manifest)])
    rw [List.length_append, List.length_singleton] at few
    rw [written.output_eq]
    exact Nat.sub_add_cancel few
  have reported : writeOutput after ⟨1, files.map Prod.fst⟩ files manifest =
      ⟨0, files.length + 1, 0⟩ := by
    have noneStale := staleFiles_listed files
    rw [staleFiles] at noneStale
    simp only [writeOutput, unchanged, noneStale, Nat.sub_self]
    rfl
  refine ⟨(fileWrites files ++ [Store.Change.write manifestFile manifest]).foldl Store.apply after,
    ?_, ?_⟩
  · have noneRemoved : fileChanges ⟨1, files.map Prod.fst⟩ files = fileWrites files := by
      rw [fileChanges_eq, staleFiles_listed]
      rfl
    rw [counted, ← reported, List.foldl_append]
    simp [writeProject, written.isObject, written.filesOk, manifestRead, noneRemoved,
      written.spelled, Store.apply]
  · rw [written.after_eq, written_eq]
    exact fun path => Store.read_applied_again (List.Subset.refl _) _ path

/-- After the disk was full, the collection is written once. -/
theorem orders_rewritten :
    ∃ again, writeProject shopYaml
        (writeProject shopYaml (folderAfter shopYaml fullDisk) (shop [orders]) none).1
        (shop [orders]) none = (again, .ok ⟨0, 3, 0⟩) ∧
      SameFiles again
        (writeProject shopYaml (folderAfter shopYaml fullDisk) (shop [orders]) none).1 :=
  rewrite_changesNothing (Prod.ext rfl fullDisk_written)

end Brunomnia.ProjectFolder
