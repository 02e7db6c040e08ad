import Brunomnia.Runner.DecidingRows
import Brunomnia.Runner.Report
import Brunomnia.Runner.Unscripted

/-!
# The runner and the editor

The editor merges the rows of all layers, the runner lays the variables of its scopes over
each other. They resolve a request alike just if the rows that decide a key on either side
give it the same text.
-/

namespace Brunomnia.Runner

open Codegen (Text)

/-! ## Chains -/

section Chains

variable {Item : Type} {idOf parentOf : Item → Text} {items : List Item}

theorem mapGet_self {id : Text} {item : Item} (found : mapGet idOf items id = some item) :
    mapGet idOf items (idOf item) = some item := by
  have isId : idOf item = id := by simpa using List.find?_some found
  rw [isId]
  exact found

theorem mapGet_of_mem_chainTo {space : ℕ} {visited : List Text} {current item : Item}
    (present : mapGet idOf items (idOf current) = some current)
    (itemMem : item ∈ chainTo idOf parentOf items space visited current) :
    mapGet idOf items (idOf item) = some item := by
  induction space generalizing visited current with
  | zero => exact absurd itemMem List.not_mem_nil
  | succ space ih =>
      unfold chainTo at itemMem
      split at itemMem
      case isTrue => exact absurd itemMem List.not_mem_nil
      case isFalse =>
        dsimp only at itemMem
        split at itemMem
        case h_1 =>
          rw [List.mem_singleton] at itemMem
          rw [itemMem]
          exact present
        case h_2 parent parentEq =>
          rw [List.mem_append, List.mem_singleton] at itemMem
          rcases itemMem with above | rfl
          · split at parentEq
            · cases parentEq
            · exact ih (mapGet_self parentEq) above
          · exact present

end Chains

theorem mapGet_of_mem_folderAncestors {collection : Collection} {folderId : Text}
    {folder : RequestFolder} (folderMem : folder ∈ folderAncestors collection folderId) :
    mapGet RequestFolder.id collection.folders folder.id = some folder := by
  unfold folderAncestors at folderMem
  split at folderMem
  · exact absurd folderMem List.not_mem_nil
  · split at folderMem
    · exact absurd folderMem List.not_mem_nil
    · next innermost found => exact mapGet_of_mem_chainTo (mapGet_self found) folderMem

/-! ## Deciding rows -/

section Rows

variable (collection : Collection) (environments : List Environment) (selected : Environment)
  (request : CollectionRequest)

def subEnvironmentRows : List KeyValue :=
  ((selectedSubEnvironment collection).map CollectionEnvironment.rows).getD []

/-- The rows that the editor merges, from the outermost layer to the innermost. -/
def editorRows : List KeyValue :=
  (environmentChain environments selected).flatMap Environment.rows ++ collection.environment ++
    subEnvironmentRows collection ++
    (folderAncestors collection request.folderId).flatMap RequestFolder.environment

def runnerLayers : List Layer :=
  let ancestors := environmentAncestors environments selected.id
  let base := ancestors.head?.getD selected
  [.environment base.rows] ++
    (if base.id = selected.id then []
      else [.environment ((ancestors.drop 1).flatMap Environment.rows ++ selected.rows)]) ++
    [.environment collection.environment] ++
    ((selectedSubEnvironment collection).map fun sub => .environment sub.rows).toList ++
    (folderAncestors collection request.folderId).map fun folder => .folder folder.environment

variable (parse : Text → Option JsonTree)

/-- The text that the deciding row of the merged rows gives to a key. -/
def editorText (key : Text) : Option Text :=
  (mergedRow (editorRows collection environments selected request) key).bind fun row =>
    rowText parse row key

/-- The text that the innermost layer which says something of a key gives to it. -/
def runnerText (key : Text) : Option Text :=
  ((runnerLayers collection environments selected request).reverse.findSome? fun layer =>
    layer.gives parse key).join

/-- The merged rows and the layers decide every key alike that a data row leaves open, and
nothing gives a text to the name of the prototype. -/
structure ResolvesAlike (iterationData : Variables) : Prop where
  prototypeUnset : iterationData prototypeKey = none
  prototypeRow : ∀ row,
    DecidesMerged (editorRows collection environments selected request) prototypeKey row →
      rowText parse row prototypeKey = none
  keys : ∀ key, key ≠ prototypeKey → iterationData key = none →
    DecidedAlike parse (editorRows collection environments selected request)
      (runnerLayers collection environments selected request) key

/-- The variables of the editor, with a data row over them. -/
def editorVariables (environment : Environment) (iterationData : Variables) : Variables :=
  (environmentMap parse
    (applyCollectionConfiguration collection request environment).environment).spread
      iterationData

end Rows

section Agreement

variable (collection : Collection) (environment : Environment) (request : CollectionRequest)
  {environments : List Environment} {activeId : Text} {selected : Environment}
  {parse : Text → Option JsonTree}

theorem environmentMap_configured
    (isSelected : selectEnvironment environments activeId = some selected)
    (resolved : resolveEnvironment environments activeId = some environment) (key : Text) :
    environmentMap parse (applyCollectionConfiguration collection request environment).environment
        key = editorText collection environments selected request parse key := by
  unfold resolveEnvironment at resolved
  rw [isSelected, Option.map_some, Option.some.injEq] at resolved
  unfold environmentMap applyCollectionConfiguration editorText
  dsimp only
  rw [List.cons_append, ← resolved, mergeRows_mergeRows, environmentVariables_mergeRows]
  have rows : ((environmentChain environments selected).map Environment.rows ++
      ([collection.environment, ((selectedSubEnvironment collection).map
        CollectionEnvironment.rows).getD []] ++
        (folderAncestors collection request.folderId).map RequestFolder.environment)).flatten =
      editorRows collection environments selected request := by
    simp [editorRows, subEnvironmentRows, List.flatMap_def]
  rw [rows]

variable {options : RunnerOptions}

theorem scopeSays_rows (rows : List KeyValue) (key : Text) :
    scopeSays (variableScope parse [rows]).values (variableScope parse [rows]).disabled key =
      (Layer.environment rows).gives parse key := by
  rw [scopeSays_variableScope, List.flatten_singleton]

theorem scopesOf_initial (isSelected : selectEnvironment environments activeId = some selected)
    (scopesEq : options.environmentScopes = scriptEnvironmentScopes parse environments activeId)
    (key : Text) :
    ((scopesOf (runnerPlan parse collection environment options)
      (initialScopes parse collection environment options.environmentScopes)
      (folderAncestors collection request.folderId)).map
        fun scope => scopeSays scope.1 scope.2 key) =
      (runnerLayers collection environments selected request).map
        fun layer => layer.gives parse key := by
  unfold scriptEnvironmentScopes at scopesEq
  rw [isSelected, Option.map_some] at scopesEq
  unfold scopesOf runnerLayers runnerPlan initialScopes
  rw [scopesEq]
  dsimp only
  simp only [List.map_append, List.map_map, Option.map_some, Option.getD_some]
  -- the layers one by one: base and selected environment, collection, sub-environment, folders
  refine congrArg₂ _ (congrArg₂ _ (congrArg₂ _ (congrArg₂ _ ?_ ?_) ?_) ?_) ?_
  · simp [scopeSays_rows]
  · generalize (environmentAncestors environments selected.id) = ancestors
    by_cases areBase : (ancestors.head?.getD selected).id = selected.id
    · simp [areBase]
    · simp [areBase, scopeSays_variableScope, List.flatMap_def]
  · unfold collectionEnvironmentScopes
    cases selectedSubEnvironment collection <;> simp [scopeSays_rows]
  · unfold collectionEnvironmentScopes
    cases selectedSubEnvironment collection <;> simp [scopeSays_rows]
  · apply List.map_congr_left
    intro folder folderMem
    have found := mapGet_of_mem_folderAncestors folderMem
    simp [found, scopeSays_folder parse]

theorem initialScopes_based
    (isSelected : selectEnvironment environments activeId = some selected)
    (scopesEq : options.environmentScopes = scriptEnvironmentScopes parse environments activeId) :
    IsBased (runnerPlan parse collection environment options)
      (initialScopes parse collection environment options.environmentScopes) := by
  unfold scriptEnvironmentScopes at scopesEq
  rw [isSelected, Option.map_some] at scopesEq
  unfold runnerPlan initialScopes
  rw [scopesEq]
  refine ⟨?_, ?_⟩
  · intro areBase
    exact if_pos areBase
  · intro areBase
    exact if_pos areBase

theorem requestVariablesOf_initial
    (isSelected : selectEnvironment environments activeId = some selected)
    (scopesEq : options.environmentScopes = scriptEnvironmentScopes parse environments activeId)
    (iterationData : Variables) (key : Text) :
    requestVariablesOf (runnerPlan parse collection environment options)
      (initialScopes parse collection environment options.environmentScopes)
      (folderAncestors collection request.folderId) iterationData noVariables key =
        if key = prototypeKey then none
        else (iterationData key).or
          (runnerText collection environments selected request parse key) := by
  rw [requestVariablesOf_eq]
  unfold Variables.assign
  split
  case isTrue isPrototype =>
    rw [isPrototype]
    exact applyScopes_prototype _
  case isFalse notPrototype =>
    have layers := congrArg (fun said => (said.reverse.findSome? id).join)
      (scopesOf_initial collection environment request isSelected scopesEq key)
    rw [← List.map_reverse, ← List.map_reverse, List.findSome?_map, List.findSome?_map] at layers
    rw [applyScopes_apply _ notPrototype]
    unfold runnerText
    exact congrArg (fun said => (iterationData key).or said) layers

theorem sameVariables_iff
    (isSelected : selectEnvironment environments activeId = some selected)
    (resolved : resolveEnvironment environments activeId = some environment)
    (scopesEq : options.environmentScopes = scriptEnvironmentScopes parse environments activeId)
    (iterationData : Variables) :
    requestVariablesOf (runnerPlan parse collection environment options)
      (initialScopes parse collection environment options.environmentScopes)
      (folderAncestors collection request.folderId) iterationData noVariables =
        editorVariables collection request parse environment iterationData ↔
      ResolvesAlike collection environments selected request parse iterationData := by
  have editor : ∀ key, editorVariables collection request parse environment iterationData key =
      (iterationData key).or (editorText collection environments selected request parse key) := by
    intro key
    unfold editorVariables Variables.spread
    rw [environmentMap_configured collection environment request isSelected resolved]
  rw [funext_iff]
  simp only [requestVariablesOf_initial collection environment request isSelected scopesEq,
    editor]
  constructor
  · intro same
    have prototype := same prototypeKey
    rw [if_pos rfl, eq_comm, Option.or_eq_none_iff] at prototype
    refine ⟨?_, ?_, ?_⟩
    · exact prototype.1
    · intro row decides
      cases given : rowText parse row prototypeKey with
      | none => rfl
      | some text =>
          have noText := prototype.2
          rw [editorText, mergedText_iff.mpr ⟨row, decides, given⟩] at noText
          cases noText
    · intro key notPrototype unset
      have sameKey := same key
      rw [if_neg notPrototype, unset, Option.none_or, Option.none_or] at sameKey
      exact decidedAlike_iff.mpr sameKey.symm
  · intro alike key
    split
    case isTrue isPrototype =>
      have noText : editorText collection environments selected request parse prototypeKey =
          none := by
        refine Option.eq_none_iff_forall_ne_some.mpr fun text isText => ?_
        rcases mergedText_iff.mp isText with ⟨row, decides, given⟩
        rw [alike.prototypeRow row decides] at given
        cases given
      rw [isPrototype, alike.prototypeUnset, noText]
      rfl
    case isFalse notPrototype =>
      cases dataEq : iterationData key with
      | some text => rfl
      | none =>
          have sameText := decidedAlike_iff.mp (alike.keys key notPrototype dataEq)
          exact congrArg (fun text => (none : Option Text).or text) sameText.symm

end Agreement

/-- In a run whose scripts change nothing, the runner sends a request with the variables of the
editor just if the deciding rows agree. -/
theorem requestVariables_iff {parse : Text → Option JsonTree} {collection : Collection}
    {environments : List Environment} {activeId : Text} {selected environment : Environment}
    {options : RunnerOptions} {callbacks : RunnerCallbacks}
    (isSelected : selectEnvironment environments activeId = some selected)
    (resolved : resolveEnvironment environments activeId = some environment)
    (scopesEq : options.environmentScopes = scriptEnvironmentScopes parse environments activeId)
    (returns : ReturnsInputs callbacks) (call : RequestCall)
    (isCall : call ∈ requestCalls
      (finalState parse collection environment options callbacks)) :
    ∃ request, (plannedRequests collection options.requestIds)[call.key.index]? = some request ∧
      (call.requestVariables = editorVariables collection request parse environment
          (dataRow (runnerPlan parse collection environment options) (call.key.iteration - 1)) ↔
        ResolvesAlike collection environments selected request parse
          (dataRow (runnerPlan parse collection environment options)
            (call.key.iteration - 1))) := by
  have moves := (finalState_spec parse collection environment options callbacks).moves
  have based := initialScopes_based collection environment isSelected scopesEq
  have started : StaysUnscripted (runnerPlan parse collection environment options)
      (initialScopes parse collection environment options.environmentScopes)
      (initialState parse collection environment options) :=
    ⟨SameScopes.refl _, fun _ noCall => absurd noCall List.not_mem_nil⟩
  obtain ⟨request, isRequest, sent⟩ :=
    (started.runnerMoves based returns moves).calls call isCall
  refine ⟨request, isRequest, ?_⟩
  rw [sent]
  exact sameVariables_iff collection environment request isSelected resolved scopesEq _

/-! ## A folder row with spaces around its name -/

theorem plainCallbacks_returnsInputs : ReturnsInputs plainCallbacks := by
  intro _ call result ran
  obtain rfl : unchanged call = result := by simpa [plainCallbacks] using ran
  have same : ∀ {Value : Type} (value : Value), Returns (some value) value :=
    fun value other isValue => (Option.mem_some_iff.mp isValue).symm
  exact ⟨rfl, same _, same _, same _, same _, same _, same _, same _, same _, same _⟩

def spacedFolder : RequestFolder where
  id := ['f']
  name := ['f']
  parentId := []
  headers := []
  environment := [⟨" host ".toList, "api".toList, true, .string⟩]
  auth := none
  preRequestScript := []
  tests := []

def spacedRequest : CollectionRequest where
  id := ['r']
  name := ['r']
  folderId := ['f']
  headers := []
  inheritFolderAuth := false
  auth := ⟨.none, false, [], [], [], [], [], [], .header, [], []⟩
  preRequestScript := []
  tests := []

def spacedCollection : Collection where
  name := ['c']
  requests := [spacedRequest]
  folders := [spacedFolder]
  environment := []
  subEnvironments := []
  activeSubEnvironmentId := none

def bareEnvironment : Environment := ⟨['e'], [], []⟩

def onceOptions : RunnerOptions where
  iterations := some 1
  retries := none
  delayMs := none
  dataRows := []
  environmentScopes := scriptEnvironmentScopes (fun _ => none) [bareEnvironment] ['e']
  requestIds := none
  testNamePattern := none
  bail := false
  flowStepLimit := none

/-- The run sends one request, and the name with its spaces is the only one. -/
theorem spacedCalls_texts :
    ((requestCalls (finalState (fun _ => none) spacedCollection bareEnvironment onceOptions
      plainCallbacks)).map fun call => call.requestVariables "host".toList) = [none] := by
  decide

theorem exists_spacedCall :
    ∃ call ∈ requestCalls (finalState (fun _ => none) spacedCollection bareEnvironment onceOptions
      plainCallbacks), call.requestVariables "host".toList = none := by
  have isCall := List.mem_map.mp (spacedCalls_texts ▸ List.mem_singleton_self none)
  exact isCall

/-- The runner keeps the spaces around the names of folder rows. -/
theorem spacedFolder_resolvesApart :
    ReturnsInputs plainCallbacks ∧
    onceOptions.environmentScopes =
      scriptEnvironmentScopes (fun _ => none) [bareEnvironment] ['e'] ∧
    resolveEnvironment [bareEnvironment] ['e'] = some bareEnvironment ∧
    ∃ call ∈ requestCalls (finalState (fun _ => none) spacedCollection bareEnvironment onceOptions
        plainCallbacks),
      call.requestVariables ≠ editorVariables spacedCollection spacedRequest (fun _ => none)
        bareEnvironment noVariables := by
  refine ⟨plainCallbacks_returnsInputs, rfl, rfl, ?_⟩
  obtain ⟨call, isCall, noText⟩ := exists_spacedCall
  refine ⟨call, isCall, ?_⟩
  intro same
  have text : editorVariables spacedCollection spacedRequest (fun _ => none)
      bareEnvironment noVariables "host".toList = some "api".toList := by decide
  rw [same, text] at noText
  cases noText

/-! ## Rows of texts on all layers -/

def textRow (name value : String) (enabled : Bool) : KeyValue :=
  ⟨name.toList, value.toList, enabled, .string⟩

def outerFolder : RequestFolder :=
  { spacedFolder with
    id := ['o']
    environment := [textRow "region" "eu" true, textRow "port" "8080" true] }

def innerFolder : RequestFolder :=
  { spacedFolder with
    parentId := ['o']
    environment := [textRow "region" "us" false] }

/-- A collection whose sub-environment and folders define its variables again. -/
def layeredCollection : Collection where
  name := ['c']
  requests := [spacedRequest]
  folders := [outerFolder, innerFolder]
  environment := [textRow "host" "localhost" true, textRow "port" "80" true]
  subEnvironments := [⟨['s'], [textRow " host " "staging" true, textRow "port" "81" false]⟩]
  activeSubEnvironmentId := some ['s']

def baseEnvironment : Environment :=
  ⟨['b'], [], [textRow "host" "global" true, textRow "token" "abc" true]⟩

def childEnvironment : Environment := ⟨['e'], ['b'], [textRow "token" "" false]⟩

def resolvedEnvironment : Environment :=
  ⟨['e'], ['b'], [textRow "host" "global" true, textRow "token" "" false]⟩

def layeredOptions : RunnerOptions :=
  { onceOptions with
    environmentScopes :=
      scriptEnvironmentScopes (fun _ => none) [baseEnvironment, childEnvironment] ['e'] }

theorem layered_separateTexts :
    SeparateTexts
      (editorRows layeredCollection [baseEnvironment, childEnvironment] childEnvironment
        spacedRequest)
      (runnerLayers layeredCollection [baseEnvironment, childEnvironment] childEnvironment
        spacedRequest) where
  sameRows := by decide
  texts := by decide
  apart := by decide
  trimmed := by
    intro layer layerMem folder isFolder
    have folders : folder = outerFolder.environment ∨ folder = innerFolder.environment := by
      rw [isFolder] at layerMem
      change _ ∈ [Layer.environment _, .environment _, .environment _, .environment _, .folder _,
        .folder _] at layerMem
      simpa using layerMem
    rcases folders with rfl | rfl
    · exact ⟨by decide, by decide⟩
    · exact ⟨by decide, by decide⟩

/-- The request is sent with the variables of the editor, with the host of the sub-environment. -/
theorem layered_requestVariables :
    ∃ call ∈ requestCalls (finalState (fun _ => none) layeredCollection resolvedEnvironment
        layeredOptions plainCallbacks),
      call.requestVariables "host".toList = some "staging".toList ∧
        call.requestVariables = editorVariables layeredCollection spacedRequest (fun _ => none)
          resolvedEnvironment noVariables := by
  have texts : ((requestCalls (finalState (fun _ => none) layeredCollection resolvedEnvironment
      layeredOptions plainCallbacks)).map fun call => call.requestVariables "host".toList) =
        [some "staging".toList] := by
    decide
  obtain ⟨call, isCall, isHost⟩ := List.mem_map.mp (texts ▸ List.mem_singleton_self _)
  have resolved : resolveEnvironment [baseEnvironment, childEnvironment] ['e'] =
      some resolvedEnvironment := by
    decide
  have isSelected : selectEnvironment [baseEnvironment, childEnvironment] ['e'] =
      some childEnvironment := rfl
  obtain ⟨request, planned, same⟩ := requestVariables_iff isSelected resolved rfl
    plainCallbacks_returnsInputs call isCall
  obtain rfl : request = spacedRequest := List.mem_singleton.mp (List.mem_of_getElem? planned)
  refine ⟨call, isCall, isHost, same.mpr ⟨rfl, fun row decides => ?_, fun _ _ _ => ?_⟩⟩
  · have undecided : mergedRow (editorRows layeredCollection [baseEnvironment, childEnvironment]
        childEnvironment spacedRequest) prototypeKey = none := by
      decide
    rw [mergedRow_eq_some_iff.mpr decides] at undecided
    cases undecided
  · exact layered_separateTexts.decidedAlike

end Brunomnia.Runner
