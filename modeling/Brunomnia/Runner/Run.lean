import Brunomnia.Runner.State

/-!
# Running a collection

Every iteration visits the planned requests in order, except that a script can name the
request to continue with. A visit makes attempts until one passes or the retries are used
up; an attempt runs the script before the request, the request and the script after it.
-/

namespace Brunomnia.Runner

open Codegen (Text trimText)

structure RunnerOptions where
  iterations : Option ℤ
  retries : Option ℤ
  delayMs : Option ℤ
  dataRows : List Variables
  environmentScopes : Option ScriptEnvironmentScopes
  requestIds : Option (List Text)
  testNamePattern : Option Text
  bail : Bool
  flowStepLimit : Option (Option ℤ)

/-- `boundedInteger`: of a number that is rounded down, or of one that is not finite. -/
def boundedInteger (value : Option ℤ) (minimum maximum : ℕ) : ℕ :=
  match value with
  | none => minimum
  | some value => (max (minimum : ℤ) (min (maximum : ℤ) value)).toNat

/-- What stays the same during a run. -/
structure RunnerPlan where
  collection : Collection
  environment : Environment
  requests : List CollectionRequest
  iterations : ℕ
  retries : ℕ
  delayed : Bool
  bail : Bool
  testNamePattern : Option Text
  flowStepLimit : ℕ
  dataRows : List Variables
  globalsAreBase : Bool
  collectionVariablesAreBase : Bool

/-! ## Scopes -/

/-- `applyScope(scope, disabled)`. -/
def applyScope (requestVariables scope : Variables) (disabled : List Text) : Variables :=
  (requestVariables.remove fun name => name ∈ disabled).assign scope

def folderRowVariables (rows : List KeyValue) : Variables :=
  (rows.filter fun row => row.enabled && row.name ≠ []).foldl
    (fun record row => record.define row.name row.value) noVariables

def folderRowDisabled (rows : List KeyValue) : List Text :=
  ((rows.filter fun row => !row.enabled && row.name ≠ []).map KeyValue.name).eraseDups

def folderStates (scopes : RunnerScopes) (folders : List RequestFolder) : List FolderState :=
  folders.map fun folder =>
    { id := folder.id
      name := folder.name
      environment := (scopes.folderVariables folder.id).getD noVariables
      disabled := (scopes.folderDisabled folder.id).getD [] }

def requestVariablesOf (plan : RunnerPlan) (scopes : RunnerScopes)
    (folders : List RequestFolder) (iterationData localVariables : Variables) : Variables :=
  let record := applyScope noVariables scopes.baseGlobals scopes.baseGlobalDisabled
  let record := if plan.globalsAreBase then record
    else applyScope record scopes.globals scopes.globalDisabled
  let record := applyScope record scopes.baseEnvironment scopes.baseEnvironmentDisabled
  let record := if plan.collectionVariablesAreBase then record
    else applyScope record scopes.collectionVariables scopes.collectionDisabled
  let record := folders.foldl
    (fun record folder =>
      applyScope record ((scopes.folderVariables folder.id).getD noVariables)
        ((scopes.folderDisabled folder.id).getD []))
    record
  (record.assign iterationData).assign localVariables

/-- What a script leaves in the scopes. -/
def scopesAfter (plan : RunnerPlan) (scopes : RunnerScopes) (result : ScriptRunResult) :
    RunnerScopes :=
  let baseEnvironment := (result.baseEnvironment.or
    (if plan.collectionVariablesAreBase then result.collectionVariables else none)).getD
      scopes.baseEnvironment
  { baseGlobals := result.baseGlobals.getD
      (if plan.globalsAreBase then result.environment else scopes.baseGlobals)
    globals := result.environment
    baseGlobalDisabled := result.baseGlobalDisabled.getD scopes.baseGlobalDisabled
    globalDisabled := result.globalDisabled.getD scopes.globalDisabled
    baseEnvironment
    collectionVariables := if plan.collectionVariablesAreBase then baseEnvironment
      else result.collectionVariables.getD scopes.collectionVariables
    baseEnvironmentDisabled :=
      result.baseEnvironmentDisabled.getD scopes.baseEnvironmentDisabled
    collectionDisabled := result.collectionDisabled.getD scopes.collectionDisabled
    folderVariables := (result.folders.getD []).foldl
      (fun record folder id => if id = folder.id then some folder.environment else record id)
      scopes.folderVariables
    folderDisabled := (result.folders.getD []).foldl
      (fun record folder id => if id = folder.id then some folder.disabled.eraseDups else record id)
      scopes.folderDisabled }

/-! ## Questions -/

inductive Control where
  | canceled
  | skipped
  deriving DecidableEq

def Control.status (control : Control) : ItemStatus :=
  match control with
  | .canceled => .canceled
  | .skipped => .skipped

def Control.message (control : Control) : Text :=
  match control with
  | .canceled => "Canceled by user.".toList
  | .skipped => "Skipped by user.".toList

/-- The message of the error that is thrown for an interruption. -/
def Control.thrown (control : Control) : Text :=
  match control with
  | .canceled => "canceled".toList
  | .skipped => "skipped".toList

section Run

variable (plan : RunnerPlan) (callbacks : RunnerCallbacks)

def interruption (key : ItemKey) (state : RunnerState) : Option Control × RunnerState :=
  if callbacks.shouldSkip state.clock key then (some .skipped, state.tick)
  else if callbacks.shouldCancel (state.clock + 1) || callbacks.aborted (state.clock + 1) then
    (some .canceled, state.tick.tick)
  else (none, state.tick.tick)

/-- `throw new Error(control)`, as the log shows it. -/
def logThrown (key : ItemKey) (control : Control) (state : RunnerState) : RunnerState :=
  match control with
  | .canceled => state.emit (.cancelThrown key state.clock)
  | .skipped => state

def callScript (call : ScriptCall) (state : RunnerState) :
    Except Text ScriptRunResult × RunnerState :=
  (callbacks.executeScript state.clock call, (state.emit (.script call)).tick)

def callRequest (call : RequestCall) (state : RunnerState) :
    Except Text HttpResponse × RunnerState :=
  (callbacks.executeRequest state.clock call, (state.emit (.request call)).tick)

/-! ## One attempt -/

structure Visiting where
  key : ItemKey
  original : CollectionRequest
  iterationData : Variables

/-- How the body of an attempt ends: with a response and its tests, because the script skips
the request, or with an error. -/
inductive Ending where
  | answered (tests : List ScriptTest)
  | skippedByScript (tests : List ScriptTest)
  | failed (message : Text)
  deriving DecidableEq

/-- What the body of an attempt leaves behind. -/
structure Sent where
  ending : Ending
  request : CollectionRequest
  response : Option HttpResponse
  next : Text

def scriptOptions (scopes : RunnerScopes) (folders : List FolderState)
    (testNamePattern : Option Text) (testCategory : TestCategory)
    (execution : Option Execution) (executionLocation : List Text) : ScriptRunOptions where
  baseGlobals := scopes.baseGlobals
  baseGlobalDisabled := scopes.baseGlobalDisabled
  globalDisabled := scopes.globalDisabled
  globalsAreBase := plan.globalsAreBase
  baseEnvironment := scopes.baseEnvironment
  baseEnvironmentDisabled := scopes.baseEnvironmentDisabled
  collectionVariables := scopes.collectionVariables
  collectionDisabled := scopes.collectionDisabled
  collectionVariablesAreBase := plan.collectionVariablesAreBase
  folders
  testNamePattern
  testCategory
  execution
  executionLocation

def executionLocation (configured : ConfiguredRequest) (request : CollectionRequest) :
    List Text :=
  plan.collection.name :: configured.folders.map RequestFolder.name ++ [request.name]

def nextOf (execution : Option Execution) : Option Text :=
  execution.bind Execution.nextRequestIdOrName

def afterResponse (visiting : Visiting) (configured : ConfiguredRequest)
    (preRequest : ScriptRunResult) (response : HttpResponse) (state : RunnerState) :
    Sent × RunnerState :=
  let request := preRequest.request
  let next := (nextOf preRequest.execution).getD []
  let call : ScriptCall :=
    { script := request.tests
      request
      globalVariables := state.scopes.globals
      response := some response
      localVariables := preRequest.localVariables.getD noVariables
      iterationData := visiting.iterationData
      options := scriptOptions plan state.scopes (folderStates state.scopes configured.folders)
        plan.testNamePattern .afterResponse preRequest.execution
        (executionLocation plan configured request) }
  match callScript callbacks call state with
  | (.error message, state) => (⟨.failed message, request, some response, next⟩, state)
  | (.ok after, state) =>
      match interruption callbacks visiting.key state with
      | (some control, state) =>
          (⟨.failed control.thrown, request, some response, next⟩,
            logThrown visiting.key control state)
      | (none, state) =>
          let state := { state with scopes := scopesAfter plan state.scopes after }
          (⟨.answered (preRequest.tests ++ after.tests), request, some response,
            (nextOf after.execution).getD next⟩, state)

/-- The request after its script. -/
def sendRequest (visiting : Visiting) (configured : ConfiguredRequest) (attempt : ℕ)
    (preRequest : ScriptRunResult) (state : RunnerState) : Sent × RunnerState :=
  let request := preRequest.request
  let requestVariables := requestVariablesOf plan state.scopes configured.folders
    visiting.iterationData (preRequest.localVariables.getD noVariables)
  let state := state.updateLiveItem visiting.key none { requestName := some request.name }
  let next := (nextOf preRequest.execution).getD []
  if (preRequest.execution.map Execution.skipRequest).getD false then
    (⟨.skippedByScript preRequest.tests, request, none, next⟩, state)
  else
    let call : RequestCall := ⟨visiting.key, attempt, request, requestVariables⟩
    match callRequest callbacks call state with
    | (.error message, state) => (⟨.failed message, request, none, next⟩, state)
    | (.ok response, state) =>
        match interruption callbacks visiting.key state with
        | (some control, state) =>
            (⟨.failed control.thrown, request, some response, next⟩,
              logThrown visiting.key control state)
        | (none, state) =>
            afterResponse plan callbacks visiting configured preRequest response state

/-- The script before a request, and the rest if it ends well. -/
def runBody (visiting : Visiting) (configured : ConfiguredRequest) (attempt : ℕ) (next : Text)
    (state : RunnerState) : Sent × RunnerState :=
  let request := configured.request
  let call : ScriptCall :=
    { script := request.preRequestScript
      request
      globalVariables := state.scopes.globals
      response := none
      localVariables := noVariables
      iterationData := visiting.iterationData
      options := scriptOptions plan state.scopes (folderStates state.scopes configured.folders)
        none .preRequest none (executionLocation plan configured request) }
  match callScript callbacks call state with
  | (.error message, state) => (⟨.failed message, request, none, next⟩, state)
  | (.ok preRequest, state) =>
      match interruption callbacks visiting.key state with
      | (some control, state) =>
          (⟨.failed control.thrown, request, none, next⟩, logThrown visiting.key control state)
      | (none, state) =>
          let state := { state with scopes := scopesAfter plan state.scopes preRequest }
          sendRequest plan callbacks visiting configured attempt preRequest state

/-- Whether an attempt ends the visit, and the request to continue with. -/
inductive AttemptEnd where
  | again (next : Text)
  | finished (next : Text)
  deriving DecidableEq

/-- An interruption ends the visit, and a cancellation the run. -/
def interrupted (visiting : Visiting) (attempt : ℕ) (control : Control) (patch : ItemPatch)
    (state : RunnerState) : RunnerState :=
  let state := if control = .canceled then state.stop .cancelled else state
  state.updateLiveItem visiting.key (some control.status)
    { patch with attempt := some attempt, errorMessage := some (some control.message) }

def isError (error : Option Text) : Bool :=
  error ≠ none ∧ error ≠ some []

/-- The result of an attempt that was neither interrupted nor skipped. -/
def recordResult (visiting : Visiting) (attempt : ℕ) (sent : Sent) (tests : List ScriptTest)
    (error : Option Text) (state : RunnerState) : AttemptEnd × Attempt × RunnerState :=
  let status := (sent.response.map HttpResponse.status).getD 0
  let passed := !isError error && sent.response.isSome && decide (0 < status ∧ status < 400) &&
    tests.all fun test => !scriptTestFailed test
  let retainResult := plan.testNamePattern = none ∨ tests ≠ [] ∨ passed = false
  let result : ItemResult :=
    ⟨visiting.key, sent.request.id, sent.request.name, attempt, status, passed, error, tests⟩
  let made : Attempt := ⟨attempt, passed, if retainResult then some result else none⟩
  let state := if retainResult then { state with results := state.results ++ [result] } else state
  let exhausted := passed || decide (attempt > plan.retries)
  let liveStatus : ItemStatus :=
    if isError error || sent.response.isNone then .failed else .completed
  let state := state.updateLiveItem visiting.key
    (some (if exhausted then liveStatus else .running))
    { attempt := some attempt
      requestName := some sent.request.name
      statusCode := some (sent.response.map HttpResponse.status)
      errorMessage := some error
      tests := some tests }
  let next := if error = none then sent.next else []
  if exhausted then
    let state := if !passed && plan.bail then
      (state.stop .bailed).finishUnfinished .skipped "Skipped after the runner bailed.".toList
      else state
    (.finished next, made, state)
  else (.again next, made, state)

/-- What follows the body of an attempt. -/
def endAttempt (visiting : Visiting) (attempt : ℕ) (sent : Sent) (state : RunnerState) :
    AttemptEnd × Attempt × RunnerState :=
  match sent.ending with
  | .answered tests => recordResult plan visiting attempt sent tests none state
  | .skippedByScript tests =>
      (.finished sent.next, ⟨attempt, false, none⟩,
        state.updateLiveItem visiting.key (some .skipped)
          { attempt := some attempt
            requestName := some sent.request.name
            errorMessage := some (some "Skipped by pre-request script.".toList)
            tests := some tests })
  | .failed message =>
      match interruption callbacks visiting.key state with
      | (some control, state) =>
          (.finished sent.next, ⟨attempt, false, none⟩,
            interrupted visiting attempt control
              { requestName := some sent.request.name
                statusCode := some (sent.response.map HttpResponse.status)
                tests := some [] }
              state)
      | (none, state) => recordResult plan visiting attempt sent [] (some message) state

/-- `wait(delayMs, signal)`, which an abort ends early. -/
def waitFor (state : RunnerState) : Bool × RunnerState :=
  if plan.delayed then (callbacks.waitEnds state.clock, state.tick) else (true, state)

def runAttempt (visiting : Visiting) (attempt : ℕ) (next : Text) (state : RunnerState) :
    AttemptEnd × Attempt × RunnerState :=
  match interruption callbacks visiting.key state with
  | (some control, state) =>
      (.finished next, ⟨attempt, false, none⟩, interrupted visiting attempt control {} state)
  | (none, state) =>
      let configured := applyCollectionConfiguration plan.collection visiting.original
        plan.environment
      let state := state.updateLiveItem visiting.key (some .running)
        { attempt := some attempt
          requestName := some configured.request.name
          errorMessage := some none }
      match waitFor plan callbacks state with
      | (false, state) =>
          match interruption callbacks visiting.key state with
          | (control, state) =>
              (.finished next, ⟨attempt, false, none⟩,
                interrupted visiting attempt (control.getD .canceled) {} state)
      | (true, state) =>
          match runBody plan callbacks visiting configured attempt next state with
          | (sent, state) => endAttempt plan callbacks visiting attempt sent state

/-! ## Visits -/

/-- The attempts of a visit, with whether it is finished and the request to continue with. -/
def runAttempts (visiting : Visiting) :
    ℕ → ℕ → Text → RunnerState → (Bool × Text × List Attempt) × RunnerState
  | 0, _, next, state => ((false, next, []), state)
  | remaining + 1, attempt, next, state =>
      match runAttempt plan callbacks visiting attempt next state with
      | (.finished next, made, state) => ((true, next, [made]), state)
      | (.again next, made, state) =>
          match runAttempts visiting remaining (attempt + 1) next state with
          | ((finished, next, attempts), state) =>
              ((finished, next, made :: attempts), state)

/-- The visit of an item: whether the run stops, and the request to continue with. -/
def visitItem (visiting : Visiting) (state : RunnerState) : (Bool × Text) × RunnerState :=
  match runAttempts plan callbacks visiting (plan.retries + 1) 1 [] state with
  | ((finished, next, attempts), state) =>
      let state := { state with visits := state.visits ++ [⟨visiting.key, attempts⟩] }
      if state.bailed then ((true, next), state)
      else if state.cancelled then
        ((true, next), state.finishUnfinished .canceled "Canceled by user.".toList)
      else if finished then ((false, next), state)
      else
        ((false, next), state.updateLiveItem visiting.key (some .failed)
          { errorMessage := some (some "The runner stopped before this item completed.".toList) })

/-! ## Steps -/

def lastRequestNameIndex (target : Text) : Option ℕ :=
  (plan.requests.zipIdx.reverse.find? fun entry =>
    trimText entry.1.name = trimText target).map Prod.snd

def matchesNextRequest (request : CollectionRequest) (index : ℕ) (target : Text) : Bool :=
  request.id = target ∨
    (trimText request.name = trimText target ∧ some index = lastRequestNameIndex plan target)

def natText (number : ℕ) : Text :=
  (toString number).toList

/-- The flow has taken as many steps as it may. -/
def exceedLimit (iteration requestIndex : ℕ) (original : CollectionRequest)
    (state : RunnerState) : RunnerState :=
  let key : ItemKey := ⟨iteration + 1, requestIndex, original.id⟩
  let message := "Runner request flow exceeded the ".toList ++ natText plan.flowStepLimit ++
    "-step safety limit in iteration ".toList ++ natText (iteration + 1) ++ ".".toList
  let result : ItemResult := ⟨key, original.id, original.name, 0, 0, false, some message, []⟩
  let state :=
    { state.stop .flowError with
      flowError := some message
      results := state.results ++ [result] }
  (state.updateLiveItem key (some .failed) { errorMessage := some (some message) }).finishUnfinished
    .skipped "Skipped after the runner flow safety limit was exceeded.".toList

/-- The steps of an iteration; whether the run stops. -/
def runSteps (iteration : ℕ) (iterationData : Variables) :
    ℕ → ℕ → Text → RunnerState → Bool × RunnerState
  | 0, requestIndex, _, state =>
      match plan.requests[requestIndex]? with
      | none => (false, state)
      | some original => (true, exceedLimit plan iteration requestIndex original state)
  | stepsLeft + 1, requestIndex, next, state =>
      match plan.requests[requestIndex]? with
      | none => (false, state)
      | some original =>
          let key : ItemKey := ⟨iteration + 1, requestIndex, original.id⟩
          let state := state.emit (.step iteration)
          if next ≠ [] ∧ matchesNextRequest plan original requestIndex next = false then
            runSteps iteration iterationData stepsLeft (requestIndex + 1) next
              (state.updateLiveItem key (some .skipped)
                { errorMessage :=
                    some (some ("Skipped while seeking '".toList ++ next ++ "'.".toList)) })
          else if callbacks.shouldCancel state.clock then
            (true, (state.tick.stop .cancelled).finishUnfinished .canceled
              "Canceled by user.".toList)
          else if callbacks.shouldSkip (state.clock + 1) key then
            runSteps iteration iterationData stepsLeft (requestIndex + 1) []
              (state.tick.tick.updateLiveItem key (some .skipped)
                { errorMessage := some (some "Skipped by user.".toList) })
          else
            match visitItem plan callbacks ⟨key, original, iterationData⟩ state.tick.tick with
            | ((true, _), state) => (true, state)
            | ((false, next), state) =>
                if next = [] ∨ matchesNextRequest plan original requestIndex next = false then
                  runSteps iteration iterationData stepsLeft (requestIndex + 1) next state
                else runSteps iteration iterationData stepsLeft requestIndex next state

def dataRow (iteration : ℕ) : Variables :=
  (plan.dataRows[iteration % max 1 plan.dataRows.length]?).getD noVariables

def runIterations : List ℕ → RunnerState → RunnerState
  | [], state => state
  | iteration :: rest, state =>
      match runSteps plan callbacks iteration (dataRow plan iteration) plan.flowStepLimit 0 []
        state with
      | (true, state) => state
      | (false, state) => runIterations rest state

end Run

/-! ## The run -/

def plannedRequests (collection : Collection) (requestIds : Option (List Text)) :
    List CollectionRequest :=
  match requestIds with
  | none => collection.requests
  | some ids => ids.eraseDups.flatMap fun id =>
      (mapGet CollectionRequest.id collection.requests id).toList

/-- The items of all iterations, in the order in which they are planned. -/
def pendingItems (requests : List CollectionRequest) (iterations : ℕ) : List LiveItem :=
  (List.range iterations).flatMap fun iteration =>
    requests.zipIdx.map fun entry =>
      { key := ⟨iteration + 1, entry.2, entry.1.id⟩
        requestName := entry.1.name
        status := .pending
        attempt := none
        statusCode := none
        errorMessage := none
        tests := [] }

structure RunnerReport where
  iterations : ℕ
  retries : ℕ
  matchedTests : ℕ
  total : ℕ
  passed : ℕ
  failed : ℕ
  cancelled : Bool
  bailed : Bool
  planned : ℕ
  completed : ℕ
  skipped : ℕ
  canceled : ℕ
  flowError : Option Text
  liveItems : List LiveItem
  results : List ItemResult

def countStatus (items : List LiveItem) (status : ItemStatus) : ℕ :=
  (items.filter fun item => item.status = status).length

section Collection

variable (parse : Text → Option JsonTree)

def runnerPlan (collection : Collection) (environment : Environment) (options : RunnerOptions) :
    RunnerPlan :=
  let requests := plannedRequests collection options.requestIds
  { collection
    environment
    requests
    iterations := boundedInteger options.iterations 1 1000
    retries := boundedInteger options.retries 0 10
    delayed := decide (0 < boundedInteger options.delayMs 0 30000)
    bail := options.bail
    testNamePattern := options.testNamePattern
    flowStepLimit := boundedInteger
      (options.flowStepLimit.getD (some (requests.length + 10000))) 1 100000
    dataRows := options.dataRows
    globalsAreBase :=
      (options.environmentScopes.map ScriptEnvironmentScopes.globalsAreBase).getD true
    collectionVariablesAreBase :=
      (collectionEnvironmentScopes parse collection).environmentIsBase }

/-- The variables with which a run starts. -/
def initialScopes (collection : Collection) (environment : Environment)
    (environmentScopes : Option ScriptEnvironmentScopes) : RunnerScopes :=
  let collectionScopes := collectionEnvironmentScopes parse collection
  let baseGlobals :=
    match environmentScopes with
    | some scopes => scopes.baseGlobals
    | none => ⟨environmentMap parse environment, []⟩
  let globals :=
    match environmentScopes with
    | some scopes => if scopes.globalsAreBase then baseGlobals.values else scopes.globals.values
    | none => baseGlobals.values
  { baseGlobals := baseGlobals.values
    globals
    baseGlobalDisabled := baseGlobals.disabled
    globalDisabled := (environmentScopes.map fun scopes => scopes.globals.disabled).getD []
    baseEnvironment := collectionScopes.baseEnvironment.values
    collectionVariables := if collectionScopes.environmentIsBase then
      collectionScopes.baseEnvironment.values else collectionScopes.environment.values
    baseEnvironmentDisabled := collectionScopes.baseEnvironment.disabled
    collectionDisabled := collectionScopes.environment.disabled
    folderVariables := fun id => (mapGet RequestFolder.id collection.folders id).map
      fun folder => folderRowVariables folder.environment
    folderDisabled := fun id => (mapGet RequestFolder.id collection.folders id).map
      fun folder => folderRowDisabled folder.environment }

def initialState (collection : Collection) (environment : Environment)
    (options : RunnerOptions) : RunnerState :=
  let plan := runnerPlan parse collection environment options
  RunnerState.publishLiveItems
    { liveItems := pendingItems plan.requests plan.iterations
      results := []
      cancelled := false
      bailed := false
      flowError := none
      scopes := initialScopes parse collection environment options.environmentScopes
      clock := 0
      events := []
      visits := [] }

def finalState (collection : Collection) (environment : Environment) (options : RunnerOptions)
    (callbacks : RunnerCallbacks) : RunnerState :=
  let plan := runnerPlan parse collection environment options
  runIterations plan callbacks (List.range plan.iterations)
    (initialState parse collection environment options)

/-- The report of a run in its last state. -/
def runnerReport (plan : RunnerPlan) (state : RunnerState) : RunnerReport where
  iterations := plan.iterations
  retries := plan.retries
  matchedTests := (state.results.map fun result => result.tests.length).sum
  total := state.results.length
  passed := (state.results.filter ItemResult.passed).length
  failed := (state.results.filter fun result => !result.passed).length
  cancelled := state.cancelled
  bailed := state.bailed
  planned := state.liveItems.length
  completed := countStatus state.liveItems .completed
  skipped := countStatus state.liveItems .skipped
  canceled := countStatus state.liveItems .canceled
  flowError := state.flowError
  liveItems := state.liveItems
  results := state.results

/-- `runCollection`. It throws for a pattern of test names that is too long or no pattern. -/
def runCollection (isPattern : Text → Bool) (collection : Collection) (environment : Environment)
    (options : RunnerOptions) (callbacks : RunnerCallbacks) : Option RunnerReport :=
  if (options.testNamePattern.map fun pattern =>
      decide ((pattern.map utf16Units).sum ≤ 1000) && isPattern pattern).getD true then
    some (runnerReport (runnerPlan parse collection environment options)
      (finalState parse collection environment options callbacks))
  else none

end Collection

end Brunomnia.Runner
