import Brunomnia.Konnect.Catalog
import Brunomnia.Projects.FileMoves
import Brunomnia.Projects.Migration

/-!
# Moving a file between stored projects

The destination is saved first and the source after it. When a save fails, what had been read
before is saved again. A save that fails may have taken effect, and so may one that puts a
project back: the file is lost when the source stays without it and the destination is put
back. Nothing is put back when the destination cannot be opened at the end. What is saved is
migrated when it is read again, and a file beyond the limits is not read.
-/

namespace Brunomnia.Projects

open Konnect (validWorkspaceId)
open Library

abbrev StoredProjects := String → Except String Workspace

structure SaveFailure where
  message : String
  tookEffect : Bool

/-- How a call of `saveCatalogWorkspace` ends: it succeeds where nothing fails. -/
abbrev SaveOutcome := Option SaveFailure

def SaveOutcome.takesEffect : SaveOutcome → Bool
  | none => true
  | some failure => failure.tookEffect

@[simp]
theorem takesEffect_none : SaveOutcome.takesEffect none = true := rfl

@[simp]
theorem takesEffect_some (failure : SaveFailure) :
    SaveOutcome.takesEffect (some failure) = failure.tookEffect := rfl

/-- `saveCatalogWorkspace` -/
def saveCatalogWorkspace (stored : StoredProjects) (id : String) (workspace : Workspace)
    (outcome : SaveOutcome) : StoredProjects :=
  if outcome.takesEffect then Function.update stored id (.ok workspace) else stored

/-- How the calls end that a move makes. -/
structure MoveOutcomes where
  saveTarget : SaveOutcome
  rollBackTarget : SaveOutcome
  saveSource : SaveOutcome
  restoreSource : SaveOutcome
  restoreTarget : SaveOutcome
  openTarget : Option String

inductive MoveError where
  | failed (message : String)
  | rollbackFailed (message : String)
  deriving DecidableEq

structure MoveResult where
  stored : StoredProjects
  result : Except MoveError Workspace

/-- What is done when the destination could not be saved. -/
def rollBackTarget (stored : StoredProjects) (targetId : String) (target : Workspace)
    (failure : SaveFailure) (outcome : SaveOutcome) : MoveResult where
  stored := saveCatalogWorkspace stored targetId target outcome
  result := .error
    (match outcome with
    | none => .failed failure.message
    | some rollback => .rollbackFailed
        ("The file move failed and destination rollback also failed: " ++ rollback.message))

/-- What is done when the source could not be saved: both rollbacks are tried. -/
def rollBackBoth (stored : StoredProjects) (sourceId targetId : String) (before : Transfer)
    (failure : SaveFailure) (restoreSource restoreTarget : SaveOutcome) : MoveResult where
  stored := saveCatalogWorkspace (saveCatalogWorkspace stored sourceId before.source
    restoreSource) targetId before.target restoreTarget
  result := .error
    (match restoreSource.or restoreTarget with
    | none => .failed failure.message
    | some rollback => .rollbackFailed
        ("The file move failed and catalog rollback also failed: " ++ rollback.message))

section Move

variable (normalize : Normalizers)

def readCatalogWorkspace (stored : StoredProjects) (id : String) : Except String Workspace :=
  (stored id).map (migrateWorkspace normalize)

/-- `openCatalogWorkspace` -/
def openCatalogWorkspace (stored : StoredProjects) (id : String) (failure : Option String) :
    Except MoveError Workspace :=
  match failure with
  | some message => .error (.failed message)
  | none => (readCatalogWorkspace normalize stored id).mapError .failed

/-- The saves of `moveCatalogProjectWorkspace`. -/
def saveMoved (stored : StoredProjects) (sourceId targetId : String) (before moved : Transfer)
    (outcomes : MoveOutcomes) : MoveResult :=
  let targetSaved := saveCatalogWorkspace stored targetId moved.target outcomes.saveTarget
  match outcomes.saveTarget with
  | some failure => rollBackTarget targetSaved targetId before.target failure
      outcomes.rollBackTarget
  | none =>
      let bothSaved := saveCatalogWorkspace targetSaved sourceId moved.source outcomes.saveSource
      match outcomes.saveSource with
      | some failure => rollBackBoth bothSaved sourceId targetId before failure
          outcomes.restoreSource outcomes.restoreTarget
      | none => ⟨bothSaved, openCatalogWorkspace normalize bothSaved targetId outcomes.openTarget⟩

-- `left.localeCompare(right)`
variable (localeCompare : String → String → ℤ)

/-- What `moveCatalogProjectWorkspace` does before it saves anything. -/
def planCatalogMove (stored : StoredProjects) (sourceId projectWorkspaceId targetId : String) :
    Except String (Transfer × Transfer) :=
  if ¬ validWorkspaceId sourceId ∨ ¬ validWorkspaceId targetId then
    .error "The project file move selection is invalid."
  else if sourceId = targetId then
    .error "Choose a different destination project to move this file."
  else
    (readCatalogWorkspace normalize stored sourceId).bind fun source =>
      (readCatalogWorkspace normalize stored targetId).bind fun target =>
        (moveProjectWorkspace localeCompare ⟨source, target⟩ projectWorkspaceId).map fun moved =>
          (⟨source, target⟩, moved)

def moveCatalogProjectWorkspace (stored : StoredProjects)
    (sourceId projectWorkspaceId targetId : String) (outcomes : MoveOutcomes) : MoveResult :=
  match planCatalogMove normalize localeCompare stored sourceId projectWorkspaceId targetId with
  | .error message => ⟨stored, .error (.failed message)⟩
  | .ok (before, moved) => saveMoved normalize stored sourceId targetId before moved outcomes

end Move

/-! ## What a move promises -/

section Promises

variable (normalize : Normalizers)

/-- The file that a move is asked for, where the source lists it. -/
def selectedFile (stored : StoredProjects) (sourceId projectWorkspaceId : String) :
    Option ProjectWorkspaceSummary :=
  match readCatalogWorkspace normalize stored sourceId with
  | .error _ => none
  | .ok source => source.projectWorkspace projectWorkspaceId

/-- A project is read back with a file. -/
def StoresFile (stored : StoredProjects) (id : String) (file : ProjectWorkspaceSummary) : Prop :=
  ∃ workspace, readCatalogWorkspace normalize stored id = .ok workspace ∧ workspace.HasFile file

/-- A move leaves both projects as they were or moves the file, and never loses it. -/
structure MoveKept (stored : StoredProjects) (sourceId projectWorkspaceId targetId : String)
    (moved : MoveResult) : Prop where
  undone : ∀ message, moved.result = .error (.failed message) →
    ∀ id ∈ [sourceId, targetId],
      readCatalogWorkspace normalize moved.stored id = readCatalogWorkspace normalize stored id
  inOne : ∀ workspace, moved.result = .ok workspace →
    ∀ file, selectedFile normalize stored sourceId projectWorkspaceId = some file →
      Xor (StoresFile normalize moved.stored sourceId file)
        (StoresFile normalize moved.stored targetId file)
  notLost : ∀ file, selectedFile normalize stored sourceId projectWorkspaceId = some file →
    StoresFile normalize moved.stored sourceId file ∨
      StoresFile normalize moved.stored targetId file

/-- Reading changes nothing more in a workspace that was read. -/
def ReadsAgain (workspace : Workspace) : Prop :=
  migrateWorkspace normalize workspace = workspace

/-- One more file of a kind is read. -/
def HasRoom (workspace : Workspace) (scope : ProjectWorkspaceScope) : Prop :=
  ∀ limit ∈ fileLimit scope, (workspace.fileIds scope).length < limit

/-- What saves may do to two projects with a file that is moved. -/
structure MoveOutcomes.Safe (outcomes : MoveOutcomes) (before : Transfer)
    (scope : ProjectWorkspaceScope) : Prop where
  targetRolledBack : outcomes.saveTarget ≠ none → outcomes.rollBackTarget = none →
    ReadsAgain normalize before.target
  opened : outcomes.saveTarget = none → outcomes.saveSource = none →
    outcomes.openTarget = none ∧ HasRoom before.target scope
  bothRolledBack : outcomes.saveTarget = none → outcomes.saveSource ≠ none →
    outcomes.restoreSource = none → outcomes.restoreTarget = none →
    ReadsAgain normalize before.source ∧ ReadsAgain normalize before.target
  /-- A source that stays without the file leaves it to the destination. -/
  kept : outcomes.saveTarget = none → outcomes.saveSource.any SaveFailure.tookEffect →
    outcomes.restoreSource.takesEffect = false →
    outcomes.restoreTarget.takesEffect = false ∧ HasRoom before.target scope

end Promises

/-! ## Saves -/

variable {normalize : Normalizers}

@[simp]
theorem read_saveCatalogWorkspace_self (stored : StoredProjects) (id : String)
    (workspace : Workspace) (outcome : SaveOutcome) :
    readCatalogWorkspace normalize (saveCatalogWorkspace stored id workspace outcome) id =
      if outcome.takesEffect then .ok (migrateWorkspace normalize workspace)
      else readCatalogWorkspace normalize stored id := by
  unfold saveCatalogWorkspace readCatalogWorkspace
  split
  · rw [Function.update_self]
    rfl
  · rfl

theorem read_saveCatalogWorkspace_of_ne {stored : StoredProjects} {id other : String}
    (different : other ≠ id) (workspace : Workspace) (outcome : SaveOutcome) :
    readCatalogWorkspace normalize (saveCatalogWorkspace stored id workspace outcome) other =
      readCatalogWorkspace normalize stored other := by
  unfold saveCatalogWorkspace readCatalogWorkspace
  split
  · rw [Function.update_of_ne different]
  · rfl

theorem storesFile_iff {stored : StoredProjects} {id : String} {workspace : Workspace}
    (isRead : readCatalogWorkspace normalize stored id = .ok workspace)
    (file : ProjectWorkspaceSummary) :
    StoresFile normalize stored id file ↔ workspace.HasFile file := by
  unfold StoresFile
  rw [isRead]
  simp

/-! ## What is read again -/

/-- A workspace as a project is read. -/
def IsRead (normalize : Normalizers) (workspace : Workspace) : Prop :=
  ∃ raw, workspace = migrateWorkspace normalize raw

theorem isRead_of_read {stored : StoredProjects} {id : String} {workspace : Workspace}
    (isRead : readCatalogWorkspace normalize stored id = .ok workspace) :
    IsRead normalize workspace := by
  rcases map_eq_ok.mp isRead with ⟨raw, _, rfl⟩
  exact ⟨raw, rfl⟩

theorem IsRead.current {workspace : Workspace} (isRead : IsRead normalize workspace) :
    supportsEmptyProjects workspace := by
  rcases isRead with ⟨raw, rfl⟩
  exact (by decide : 42 ≤ 52)

theorem IsRead.hasFile_again {workspace : Workspace} (isRead : IsRead normalize workspace)
    (file : ProjectWorkspaceSummary) :
    (migrateWorkspace normalize workspace).HasFile file ↔ workspace.HasFile file := by
  unfold Workspace.HasFile
  rw [migrateWorkspace_fileIds isRead.current]
  rcases isRead with ⟨raw, rfl⟩
  rw [readIds_migrateWorkspace]

theorem mem_readIds_append_iff {scope : ProjectWorkspaceScope} {ids others : List String}
    {id : String} (isNew : id ∉ ids) :
    id ∈ readIds scope (ids ++ id :: others) ↔ ∀ limit ∈ fileLimit scope, ids.length < limit := by
  unfold readIds
  cases fileLimit scope with
  | none => simp
  | some limit =>
      have outside : id ∉ ids.take limit := fun mem => isNew (List.mem_of_mem_take mem)
      simp only [List.take_append, List.mem_append, outside, false_or, Option.mem_some_iff,
        forall_eq']
      cases room : limit - ids.length with
      | zero =>
          rw [List.take_zero]
          exact iff_of_false List.not_mem_nil (by omega)
      | succ more =>
          rw [List.take_succ_cons]
          exact iff_of_true List.mem_cons_self (by omega)

/-- Two projects that are read and between which a file is about to be moved. -/
structure PlannedMove (normalize : Normalizers) (stored : StoredProjects)
    (sourceId projectWorkspaceId targetId : String) (before moved : Transfer)
    (file : ProjectWorkspaceSummary) : Prop where
  distinct : sourceId ≠ targetId
  source : readCatalogWorkspace normalize stored sourceId = .ok before.source
  target : readCatalogWorkspace normalize stored targetId = .ok before.target
  selected : before.source.projectWorkspace projectWorkspaceId = some file
  present : before.source.HasFile file
  fileMoved : FileMoved before moved file

variable {localeCompare : String → String → ℤ} {stored : StoredProjects}
  {sourceId projectWorkspaceId targetId : String} {before moved : Transfer}
  {outcomes : MoveOutcomes} {file : ProjectWorkspaceSummary}

theorem plannedMove_of_plan
    (planned : planCatalogMove normalize localeCompare stored sourceId projectWorkspaceId
      targetId = .ok (before, moved)) :
    ∃ file,
      PlannedMove normalize stored sourceId projectWorkspaceId targetId before moved file := by
  unfold planCatalogMove at planned
  split at planned
  · cases planned
  · split at planned
    · cases planned
    case isFalse distinct =>
      rcases bind_eq_ok_iff.mp planned with ⟨source, sourceEq, rest⟩
      rcases bind_eq_ok_iff.mp rest with ⟨target, targetEq, moves⟩
      rcases map_eq_ok.mp moves with ⟨result, accepted, pairEq⟩
      cases pairEq
      rcases moveProjectWorkspace_fileMoved accepted with ⟨file, selected, present, fileMoved⟩
      exact ⟨file, distinct, sourceEq, targetEq, selected, present, fileMoved⟩

/-! ## The ways in which a planned move ends -/

section Ends

variable
  (plan : PlannedMove normalize stored sourceId projectWorkspaceId targetId before moved file)
include plan

theorem PlannedMove.sourceAgain : (migrateWorkspace normalize before.source).HasFile file :=
  ((isRead_of_read plan.source).hasFile_again file).mpr plan.present

theorem PlannedMove.targetAgain : ¬ (migrateWorkspace normalize before.target).HasFile file :=
  fun hasFile =>
    plan.fileMoved.wasNew (((isRead_of_read plan.target).hasFile_again file).mp hasFile)

theorem PlannedMove.movedSource : ¬ (migrateWorkspace normalize moved.source).HasFile file := by
  have current : supportsEmptyProjects moved.source := by
    rw [supportsEmptyProjects, plan.fileMoved.sameVersions.1]
    exact (isRead_of_read plan.source).current
  unfold Workspace.HasFile
  rw [migrateWorkspace_fileIds current]
  intro mem
  exact plan.fileMoved.isGone (mem_of_mem_readIds mem)

theorem PlannedMove.movedTarget :
    (migrateWorkspace normalize moved.target).HasFile file ↔ HasRoom before.target file.scope := by
  have current : supportsEmptyProjects moved.target := by
    rw [supportsEmptyProjects, plan.fileMoved.sameVersions.2]
    exact (isRead_of_read plan.target).current
  rcases plan.fileMoved.hasCome with ⟨others, behind⟩
  unfold Workspace.HasFile
  rw [migrateWorkspace_fileIds current, behind]
  exact mem_readIds_append_iff plan.fileMoved.wasNew

/-- Where the move has been asked for this file, what it promises is about this file. -/
theorem PlannedMove.moveKept_iff (ended : MoveResult) :
    MoveKept normalize stored sourceId projectWorkspaceId targetId ended ↔
      (∀ message, ended.result = .error (.failed message) →
        readCatalogWorkspace normalize ended.stored sourceId = .ok before.source ∧
          readCatalogWorkspace normalize ended.stored targetId = .ok before.target) ∧
      (∀ workspace, ended.result = .ok workspace →
        Xor (StoresFile normalize ended.stored sourceId file)
          (StoresFile normalize ended.stored targetId file)) ∧
      (StoresFile normalize ended.stored sourceId file ∨
        StoresFile normalize ended.stored targetId file) := by
  have selected : selectedFile normalize stored sourceId projectWorkspaceId = some file := by
    rw [selectedFile, plan.source]
    exact plan.selected
  constructor
  · intro kept
    refine ⟨?_, fun workspace isOk => kept.inOne workspace isOk file selected,
      kept.notLost file selected⟩
    intro message failed
    have undone := kept.undone message failed
    rw [← plan.source, ← plan.target]
    exact ⟨undone sourceId (by simp), undone targetId (by simp)⟩
  · rintro ⟨undone, inOne, notLost⟩
    refine ⟨?_, ?_, ?_⟩
    · intro message failed id isEither
      have same := undone message failed
      rw [← plan.source, ← plan.target] at same
      rcases List.mem_pair.mp isEither with rfl | rfl
      · exact same.1
      · exact same.2
    · intro workspace isOk other otherSelected
      cases selected.symm.trans otherSelected
      exact inOne workspace isOk
    · intro other otherSelected
      cases selected.symm.trans otherSelected
      exact notLost

/-- As long as the source is not saved, it has the file. -/
theorem PlannedMove.rollBackTarget_kept_iff (failure : SaveFailure) (outcome : SaveOutcome) :
    MoveKept normalize stored sourceId projectWorkspaceId targetId
        (rollBackTarget (saveCatalogWorkspace stored targetId moved.target (some failure)) targetId
          before.target failure outcome) ↔
      (outcome = none → ReadsAgain normalize before.target) := by
  rw [plan.moveKept_iff]
  have sourceSame : readCatalogWorkspace normalize (rollBackTarget (saveCatalogWorkspace stored
      targetId moved.target (some failure)) targetId before.target failure outcome).stored
        sourceId = .ok before.source := by
    simp only [rollBackTarget, read_saveCatalogWorkspace_of_ne plan.distinct, plan.source]
  rw [storesFile_iff sourceSame]
  simp only [plan.present, true_or, and_true, sourceSame, true_and]
  cases outcome with
  | none => simp [rollBackTarget, ReadsAgain]
  | some rollback => simp [rollBackTarget]

/-- Once both projects are saved, the destination has the file and the source does not. -/
theorem PlannedMove.opened_kept_iff (failure : Option String) :
    MoveKept normalize stored sourceId projectWorkspaceId targetId
        ⟨saveCatalogWorkspace (saveCatalogWorkspace stored targetId moved.target none) sourceId
            moved.source none,
          openCatalogWorkspace normalize (saveCatalogWorkspace (saveCatalogWorkspace stored targetId
            moved.target none) sourceId moved.source none) targetId failure⟩ ↔
      failure = none ∧ HasRoom before.target file.scope := by
  rw [plan.moveKept_iff]
  generalize storedEq : saveCatalogWorkspace (saveCatalogWorkspace stored targetId moved.target
    none) sourceId moved.source none = after
  have sourceSaved : readCatalogWorkspace normalize after sourceId =
      .ok (migrateWorkspace normalize moved.source) := by simp [← storedEq]
  have targetSaved : readCatalogWorkspace normalize after targetId =
      .ok (migrateWorkspace normalize moved.target) := by
    simp [← storedEq, read_saveCatalogWorkspace_of_ne plan.distinct.symm]
  simp only [storesFile_iff sourceSaved, storesFile_iff targetSaved, plan.movedSource,
    plan.movedTarget, false_or]
  cases failure with
  | none => simp [openCatalogWorkspace, targetSaved, Except.mapError]
  | some message =>
      simp only [openCatalogWorkspace, reduceCtorEq, false_and, iff_false]
      rintro ⟨undone, _⟩
      have same := (undone message rfl).1
      rw [sourceSaved] at same
      have isGone := plan.movedSource
      rw [Except.ok.inj same] at isGone
      exact isGone plan.present

/-- Rolling back both projects loses the file when the source was saved after all and the
destination is put back or has no room. -/
theorem PlannedMove.rollBackBoth_kept_iff (failure : SaveFailure)
    (restoreSource restoreTarget : SaveOutcome) :
    MoveKept normalize stored sourceId projectWorkspaceId targetId
        (rollBackBoth (saveCatalogWorkspace (saveCatalogWorkspace stored targetId moved.target
            none) sourceId moved.source (some failure)) sourceId targetId before failure
          restoreSource restoreTarget) ↔
      (restoreSource = none → restoreTarget = none →
        ReadsAgain normalize before.source ∧ ReadsAgain normalize before.target) ∧
      (failure.tookEffect = true → restoreSource.takesEffect = false →
        restoreTarget.takesEffect = false ∧ HasRoom before.target file.scope) := by
  rw [plan.moveKept_iff]
  generalize endedEq : rollBackBoth (saveCatalogWorkspace (saveCatalogWorkspace stored targetId
    moved.target none) sourceId moved.source (some failure)) sourceId targetId before failure
    restoreSource restoreTarget = ended
  have sourceEnd : readCatalogWorkspace normalize ended.stored sourceId = .ok
      (if restoreSource.takesEffect = true then migrateWorkspace normalize before.source
        else if failure.tookEffect = true then migrateWorkspace normalize moved.source
        else before.source) := by
    rw [← endedEq, rollBackBoth, read_saveCatalogWorkspace_of_ne plan.distinct,
      read_saveCatalogWorkspace_self, read_saveCatalogWorkspace_self,
      read_saveCatalogWorkspace_of_ne plan.distinct, plan.source, takesEffect_some]
    split
    · rfl
    · split <;> rfl
  have targetEnd : readCatalogWorkspace normalize ended.stored targetId = .ok
      (if restoreTarget.takesEffect = true then migrateWorkspace normalize before.target
        else migrateWorkspace normalize moved.target) := by
    rw [← endedEq, rollBackBoth, read_saveCatalogWorkspace_self,
      read_saveCatalogWorkspace_of_ne plan.distinct.symm,
      read_saveCatalogWorkspace_of_ne plan.distinct.symm, read_saveCatalogWorkspace_self,
      takesEffect_none]
    split <;> rfl
  have notOk : ∀ workspace, ended.result ≠ .ok workspace := by
    intro workspace
    simp [← endedEq, rollBackBoth]
  have failedIff : (∃ message, ended.result = .error (.failed message)) ↔
      restoreSource = none ∧ restoreTarget = none := by
    rw [← endedEq]
    cases restoreSource <;> cases restoreTarget <;> simp [rollBackBoth]
  have undone : (∀ message, ended.result = .error (.failed message) →
        readCatalogWorkspace normalize ended.stored sourceId = .ok before.source ∧
          readCatalogWorkspace normalize ended.stored targetId = .ok before.target) ↔
      (restoreSource = none → restoreTarget = none →
        ReadsAgain normalize before.source ∧ ReadsAgain normalize before.target) := by
    rw [← exists_imp, failedIff, and_imp, sourceEnd, targetEnd]
    refine forall_congr' fun restoredSource => forall_congr' fun restoredTarget => ?_
    simp [restoredSource, restoredTarget, ReadsAgain]
  have notLost : StoresFile normalize ended.stored sourceId file ∨
        StoresFile normalize ended.stored targetId file ↔
      (failure.tookEffect = true → restoreSource.takesEffect = false →
        restoreTarget.takesEffect = false ∧ HasRoom before.target file.scope) := by
    rw [storesFile_iff sourceEnd, storesFile_iff targetEnd]
    cases restoreSource.takesEffect <;> cases failure.tookEffect <;>
      cases restoreTarget.takesEffect <;>
      simp [plan.sourceAgain, plan.targetAgain, plan.movedSource, plan.movedTarget, plan.present]
  rw [undone, notLost]
  exact and_congr_right fun _ => and_iff_right fun workspace isOk => absurd isOk (notOk workspace)

theorem PlannedMove.saveMoved_kept_iff :
    MoveKept normalize stored sourceId projectWorkspaceId targetId
        (saveMoved normalize stored sourceId targetId before moved outcomes) ↔
      outcomes.Safe normalize before file.scope := by
  unfold saveMoved
  cases saveTarget : outcomes.saveTarget with
  | some failure =>
      rw [plan.rollBackTarget_kept_iff failure]
      constructor
      · exact fun again => ⟨fun _ => again, by simp [saveTarget], by simp [saveTarget],
          by simp [saveTarget]⟩
      · exact fun safe => safe.targetRolledBack (by simp [saveTarget])
  | none =>
      cases saveSource : outcomes.saveSource with
      | none =>
          simp only [plan.opened_kept_iff]
          constructor
          · exact fun opened => ⟨by simp [saveTarget], fun _ _ => opened, by simp [saveSource],
              by simp [saveSource]⟩
          · exact fun safe => safe.opened saveTarget saveSource
      | some failure =>
          simp only [plan.rollBackBoth_kept_iff failure]
          constructor
          · rintro ⟨again, kept⟩
            exact ⟨by simp [saveTarget], by simp [saveSource], fun _ _ => again,
              fun _ tookEffect => kept (by simpa [saveSource] using tookEffect)⟩
          · intro safe
            exact ⟨safe.bothRolledBack saveTarget (by simp [saveSource]),
              fun tookEffect => safe.kept saveTarget (by simpa [saveSource] using tookEffect)⟩

end Ends

/-- Nothing is normalized in what is written here. -/
def plainNormalizers : Normalizers where
  seed := blankWorkspace "Local Workspace"
  seedEnvironments := Nat.zero_le _
  collection := id
  resourceOrder := id
  environment := id
  design := id
  mcpClient := id
  rest := id

def mockServerProjects : StoredProjects := fun id =>
  if id = "first" then
    .ok { blankWorkspace "First" with mockServers := [⟨"server", "Server", [], .null⟩] }
  else if id = "second" then .ok (blankWorkspace "Second")
  else .error "This local project no longer exists."

/-- The source cannot be saved, and both projects are put back. -/
def sourceUnwritable : MoveOutcomes where
  saveTarget := none
  rollBackTarget := none
  saveSource := some ⟨"The quota has been exceeded.", false⟩
  restoreSource := none
  restoreTarget := none
  openTarget := none

/-- The source is saved although this is not reported, and cannot be put back. -/
def storageFull : MoveOutcomes where
  saveTarget := none
  rollBackTarget := none
  saveSource := some ⟨"The quota has been exceeded.", true⟩
  restoreSource := some ⟨"The quota has been exceeded.", false⟩
  restoreTarget := none
  openTarget := none

end Brunomnia.Projects
