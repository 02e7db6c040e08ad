import Brunomnia.Runner.Iterations
import Brunomnia.Runner.Layers

/-!
# Runs whose scripts change nothing

While scripts return the variables that they are given, every request is sent with the
variables of the scopes that the run started with.
-/

namespace Brunomnia.Runner

open Codegen (Text)

/-! ## Scripts without effects -/

/-- Nothing is returned, or what was given. -/
def Returns {Value : Type} (returned : Option Value) (given : Value) : Prop :=
  ∀ value ∈ returned, value = given

theorem Returns.getD {Value : Type} {returned : Option Value} {given : Value}
    (returns : Returns returned given) : returned.getD given = given := by
  cases returned with
  | none => rfl
  | some value => exact returns value rfl

/-- A script returns the variables that it is given. -/
structure ReturnsInput (call : ScriptCall) (result : ScriptRunResult) : Prop where
  environment : result.environment = call.globalVariables
  baseGlobals : Returns result.baseGlobals call.options.baseGlobals
  baseGlobalDisabled : Returns result.baseGlobalDisabled call.options.baseGlobalDisabled
  globalDisabled : Returns result.globalDisabled call.options.globalDisabled
  collectionVariables : Returns result.collectionVariables call.options.collectionVariables
  baseEnvironment : Returns result.baseEnvironment call.options.baseEnvironment
  baseEnvironmentDisabled :
    Returns result.baseEnvironmentDisabled call.options.baseEnvironmentDisabled
  collectionDisabled : Returns result.collectionDisabled call.options.collectionDisabled
  folders : Returns result.folders call.options.folders
  localVariables : Returns result.localVariables call.localVariables

def ReturnsInputs (callbacks : RunnerCallbacks) : Prop :=
  ∀ number call result, callbacks.executeScript number call = .ok result →
    ReturnsInput call result

/-! ## The scopes of such a run -/

/-- Where globals or collection variables are those of their base, they agree. -/
structure IsBased (plan : RunnerPlan) (scopes : RunnerScopes) : Prop where
  globals : plan.globalsAreBase = true → scopes.globals = scopes.baseGlobals
  collectionVariables : plan.collectionVariablesAreBase = true →
    scopes.collectionVariables = scopes.baseEnvironment

structure SameScopes (initial scopes : RunnerScopes) : Prop where
  baseGlobals : scopes.baseGlobals = initial.baseGlobals
  globals : scopes.globals = initial.globals
  baseGlobalDisabled : scopes.baseGlobalDisabled = initial.baseGlobalDisabled
  globalDisabled : scopes.globalDisabled = initial.globalDisabled
  baseEnvironment : scopes.baseEnvironment = initial.baseEnvironment
  collectionVariables : scopes.collectionVariables = initial.collectionVariables
  baseEnvironmentDisabled : scopes.baseEnvironmentDisabled = initial.baseEnvironmentDisabled
  collectionDisabled : scopes.collectionDisabled = initial.collectionDisabled
  folderVariables : ∀ id, (scopes.folderVariables id).getD noVariables =
    (initial.folderVariables id).getD noVariables
  folderDisabled : ∀ id name, name ∈ (scopes.folderDisabled id).getD [] ↔
    name ∈ (initial.folderDisabled id).getD []

section Scopes

variable {plan : RunnerPlan} {initial scopes : RunnerScopes}

theorem SameScopes.refl (scopes : RunnerScopes) : SameScopes scopes scopes :=
  ⟨rfl, rfl, rfl, rfl, rfl, rfl, rfl, rfl, fun _ => rfl, fun _ _ => Iff.rfl⟩

theorem SameScopes.trans {later : RunnerScopes} (first : SameScopes initial scopes)
    (second : SameScopes scopes later) : SameScopes initial later where
  baseGlobals := second.baseGlobals.trans first.baseGlobals
  globals := second.globals.trans first.globals
  baseGlobalDisabled := second.baseGlobalDisabled.trans first.baseGlobalDisabled
  globalDisabled := second.globalDisabled.trans first.globalDisabled
  baseEnvironment := second.baseEnvironment.trans first.baseEnvironment
  collectionVariables := second.collectionVariables.trans first.collectionVariables
  baseEnvironmentDisabled :=
    second.baseEnvironmentDisabled.trans first.baseEnvironmentDisabled
  collectionDisabled := second.collectionDisabled.trans first.collectionDisabled
  folderVariables id := (second.folderVariables id).trans (first.folderVariables id)
  folderDisabled id name := (second.folderDisabled id name).trans (first.folderDisabled id name)

theorem SameScopes.isBased (same : SameScopes initial scopes) (based : IsBased plan initial) :
    IsBased plan scopes := by
  refine ⟨?_, ?_⟩
  · intro areBase
    rw [same.globals, same.baseGlobals, based.globals areBase]
  · intro areBase
    rw [same.collectionVariables, same.baseEnvironment, based.collectionVariables areBase]

theorem folderVariables_writeBack (folders : List RequestFolder) (record : Text → Option Variables)
    (same : ∀ id, (record id).getD noVariables = (scopes.folderVariables id).getD noVariables)
    (id : Text) :
    (((folderStates scopes folders).foldl
      (fun record folder id => if id = folder.id then some folder.environment else record id)
      record) id).getD noVariables = (scopes.folderVariables id).getD noVariables := by
  unfold folderStates
  induction folders generalizing record with
  | nil => exact same id
  | cons folder folders ih =>
      rw [List.map_cons, List.foldl_cons]
      apply ih
      intro other
      by_cases isThis : other = folder.id
      · simp [isThis]
      · simp [isThis, same]

theorem folderDisabled_writeBack (folders : List RequestFolder)
    (record : Text → Option (List Text))
    (same : ∀ id name, name ∈ (record id).getD [] ↔ name ∈ (scopes.folderDisabled id).getD [])
    (id name : Text) :
    name ∈ (((folderStates scopes folders).foldl
      (fun record folder id => if id = folder.id then some folder.disabled.eraseDups else record id)
      record) id).getD [] ↔ name ∈ (scopes.folderDisabled id).getD [] := by
  unfold folderStates
  induction folders generalizing record with
  | nil => exact same id name
  | cons folder folders ih =>
      rw [List.map_cons, List.foldl_cons]
      apply ih
      intro other name
      by_cases isThis : other = folder.id
      · simp [isThis]
      · simp [isThis, same]

theorem sameScopes_scopesAfter (based : IsBased plan scopes) {call : ScriptCall}
    {result : ScriptRunResult} (isScript : IsScriptOf plan scopes call)
    (returns : ReturnsInput call result) : SameScopes scopes (scopesAfter plan scopes result) := by
  obtain ⟨globals, folders, testNamePattern, testCategory, execution, location, options⟩ := isScript
  have environment := returns.environment.trans globals
  obtain ⟨_, baseGlobals, baseGlobalDisabled, globalDisabled, collectionVariables,
    baseEnvironment, baseEnvironmentDisabled, collectionDisabled, returnedFolders, _⟩ := returns
  rw [options] at baseGlobals baseGlobalDisabled globalDisabled collectionVariables
  rw [options] at baseEnvironment baseEnvironmentDisabled collectionDisabled returnedFolders
  have base : (result.baseEnvironment.or (if plan.collectionVariablesAreBase = true then
      result.collectionVariables else none)).getD scopes.baseEnvironment =
        scopes.baseEnvironment := by
    cases returnedEq : result.baseEnvironment with
    | some values => exact baseEnvironment values returnedEq
    | none =>
        split
        case isTrue areBase =>
          have agrees := based.collectionVariables areBase
          rw [← agrees]
          exact collectionVariables.getD
        case isFalse => rfl
  refine ⟨?_, environment, baseGlobalDisabled.getD, globalDisabled.getD, base, ?_,
    baseEnvironmentDisabled.getD, collectionDisabled.getD, ?_, ?_⟩
  · unfold scopesAfter
    dsimp only
    split
    case isTrue areBase =>
      rw [environment, based.globals areBase]
      exact baseGlobals.getD
    case isFalse => exact baseGlobals.getD
  · unfold scopesAfter
    dsimp only
    split
    case isTrue areBase =>
      rw [if_pos areBase] at base
      rw [base, based.collectionVariables areBase]
    case isFalse => exact collectionVariables.getD
  · intro id
    unfold scopesAfter
    cases foldersEq : result.folders with
    | none => rfl
    | some returned =>
        rw [returnedFolders returned foldersEq]
        exact folderVariables_writeBack folders _ (fun _ => rfl) id
  · intro id name
    unfold scopesAfter
    cases foldersEq : result.folders with
    | none => rfl
    | some returned =>
        rw [returnedFolders returned foldersEq]
        exact folderDisabled_writeBack folders _ (fun _ _ => Iff.rfl) id name

theorem SameScopes.requestVariablesOf (same : SameScopes initial scopes)
    (folders : List RequestFolder) (iterationData localVariables : Variables) :
    requestVariablesOf plan scopes folders iterationData localVariables =
      Runner.requestVariablesOf plan initial folders iterationData localVariables := by
  have sameFolder : ∀ record (folder : RequestFolder),
      applyScope record ((scopes.folderVariables folder.id).getD noVariables)
          ((scopes.folderDisabled folder.id).getD []) =
        applyScope record ((initial.folderVariables folder.id).getD noVariables)
          ((initial.folderDisabled folder.id).getD []) := by
    intro record folder
    unfold applyScope
    rw [same.folderVariables]
    simp only [same.folderDisabled]
  unfold Runner.requestVariablesOf
  simp only [sameFolder, same.baseGlobals, same.globals, same.baseGlobalDisabled,
    same.globalDisabled, same.baseEnvironment, same.collectionVariables,
    same.baseEnvironmentDisabled, same.collectionDisabled]

end Scopes

/-! ## The requests of such a run -/

def Event.requestCall? : Event → Option RequestCall
  | .request call => some call
  | _ => none

def requestCalls (state : RunnerState) : List RequestCall :=
  state.events.filterMap Event.requestCall?

/-- A request that is sent with the variables of the first scopes. -/
def IsUnscripted (plan : RunnerPlan) (initial : RunnerScopes) (call : RequestCall) : Prop :=
  ∃ original, plan.requests[call.key.index]? = some original ∧
    call.requestVariables = requestVariablesOf plan initial
      (folderAncestors plan.collection original.folderId)
      (dataRow plan (call.key.iteration - 1)) noVariables

/-- A run whose scripts changed nothing. -/
structure StaysUnscripted (plan : RunnerPlan) (initial : RunnerScopes) (state : RunnerState) :
    Prop where
  scopes : SameScopes initial state.scopes
  calls : ∀ call ∈ requestCalls state, IsUnscripted plan initial call

section Moves

variable {plan : RunnerPlan} {callbacks : RunnerCallbacks} {initial : RunnerScopes}
  {state after : RunnerState}

theorem StaysUnscripted.same (stays : StaysUnscripted plan initial state)
    (scopes : after.scopes = state.scopes) (calls : requestCalls after = requestCalls state) :
    StaysUnscripted plan initial after := by
  refine ⟨?_, ?_⟩
  · rw [scopes]
    exact stays.scopes
  · rw [calls]
    exact stays.calls

theorem requestCalls_emit (state : RunnerState) {event : Event}
    (notRequest : event.requestCall? = none) :
    requestCalls (state.emit event) = requestCalls state := by
  simp [requestCalls, RunnerState.emit, notRequest]

theorem StaysUnscripted.visitMove (stays : StaysUnscripted plan initial state)
    (based : IsBased plan initial) (returns : ReturnsInputs callbacks)
    (move : VisitMove plan callbacks state after) : StaysUnscripted plan initial after := by
  cases move with
  | script call => exact stays.same rfl (requestCalls_emit state rfl)
  | request call unstopped isSent =>
      obtain
        ⟨original, number, scriptCall, result, isOriginal, ran, noLocals, variablesEq⟩ := isSent
      have localsEq : result.localVariables.getD noVariables = noVariables := by
        have returnsLocals := (returns number scriptCall result ran).localVariables
        rw [noLocals] at returnsLocals
        exact returnsLocals.getD
      have isUnscripted : IsUnscripted plan initial call := by
        refine ⟨original, isOriginal, ?_⟩
        rw [variablesEq, localsEq]
        exact stays.scopes.requestVariablesOf _ _ _
      refine ⟨stays.scopes, ?_⟩
      intro other otherMem
      have calls : requestCalls (state.emit (.request call)) = requestCalls state ++ [call] := by
        simp [requestCalls, RunnerState.emit, Event.requestCall?]
      rw [calls, List.mem_append, List.mem_singleton] at otherMem
      rcases otherMem with earlier | rfl
      · exact stays.calls other earlier
      · exact isUnscripted
  | scopes ran isScript =>
      have later := sameScopes_scopesAfter (stays.scopes.isBased based) isScript
        (returns _ _ _ ran)
      exact ⟨stays.scopes.trans later, stays.calls⟩
  | update key status patch =>
      apply stays.same (updateLiveItem_scopes state key status patch)
      unfold RunnerState.updateLiveItem
      split
      · exact requestCalls_emit _ rfl
      · rfl
  | finish status errorMessage =>
      unfold RunnerState.finishUnfinished
      split
      · exact stays.same rfl (requestCalls_emit _ rfl)
      · exact stays
  | thrown key => exact stays.same rfl (requestCalls_emit _ rfl)
  | cancel => exact stays.same rfl (requestCalls_emit _ rfl)
  | bail => exact stays.same rfl (requestCalls_emit _ rfl)
  | _ => exact stays.same rfl rfl

theorem StaysUnscripted.runnerMoves (stays : StaysUnscripted plan initial state)
    (based : IsBased plan initial) (returns : ReturnsInputs callbacks)
    (moves : RunnerMoves plan callbacks state after) : StaysUnscripted plan initial after := by
  induction moves with
  | refl => exact stays
  | tail _ move ih =>
      cases move with
      | visit move => exact ih.visitMove based returns move
      | step => exact ih.same rfl (requestCalls_emit _ rfl)
      | exceed => exact ih.same rfl (requestCalls_emit _ rfl)

end Moves

end Brunomnia.Runner
