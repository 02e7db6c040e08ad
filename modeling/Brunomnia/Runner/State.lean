import Brunomnia.Runner.Scopes

/-!
# State of a collection run

The items that the runner shows, the results it reports, the variables it carries from one
request to the next, and the calls it has made. The callbacks and the executors may answer
differently each time: they get the number of the question.
-/

namespace Brunomnia.Runner

open Codegen (Text trimText)

/-! ## Items and results -/

inductive ItemStatus where
  | pending
  | running
  | completed
  | failed
  | canceled
  | skipped
  deriving DecidableEq

/-- `isRunnerItemFinished(status)`. -/
def isRunnerItemFinished (status : ItemStatus) : Bool :=
  status = .completed ∨ status = .failed ∨ status = .canceled ∨ status = .skipped

/-- `buildRunnerItemKey`: the numbers and the id that make up a key. -/
structure ItemKey where
  iteration : ℕ
  index : ℕ
  requestId : Text
  deriving DecidableEq

inductive TestStatus where
  | passed
  | failed
  | skipped
  deriving DecidableEq

structure ScriptTest where
  status : Option TestStatus
  passed : Bool
  deriving DecidableEq

def scriptTestStatus (test : ScriptTest) : TestStatus :=
  test.status.getD (if test.passed then .passed else .failed)

def scriptTestFailed (test : ScriptTest) : Bool :=
  scriptTestStatus test = .failed

structure LiveItem where
  key : ItemKey
  requestName : Text
  status : ItemStatus
  attempt : Option ℕ
  statusCode : Option ℤ
  errorMessage : Option Text
  tests : List ScriptTest
  deriving DecidableEq

/-- What an update sets of an item besides its status. -/
structure ItemPatch where
  requestName : Option Text := none
  attempt : Option ℕ := none
  statusCode : Option (Option ℤ) := none
  errorMessage : Option (Option Text) := none
  tests : Option (List ScriptTest) := none

def ItemPatch.apply (patch : ItemPatch) (item : LiveItem) : LiveItem :=
  { item with
    requestName := patch.requestName.getD item.requestName
    attempt := patch.attempt.or item.attempt
    statusCode := patch.statusCode.getD item.statusCode
    errorMessage := patch.errorMessage.getD item.errorMessage
    tests := patch.tests.getD item.tests }

structure ItemResult where
  key : ItemKey
  requestId : Text
  requestName : Text
  attempt : ℕ
  status : ℤ
  passed : Bool
  error : Option Text
  tests : List ScriptTest
  deriving DecidableEq

/-! ## Calls of the executors -/

structure HttpResponse where
  status : ℤ
  deriving DecidableEq

structure FolderState where
  id : Text
  name : Text
  environment : Variables
  disabled : List Text

inductive TestCategory where
  | preRequest
  | afterResponse
  deriving DecidableEq

structure Execution where
  nextRequestIdOrName : Option Text
  skipRequest : Bool
  deriving DecidableEq

structure ScriptRunOptions where
  baseGlobals : Variables
  baseGlobalDisabled : List Text
  globalDisabled : List Text
  globalsAreBase : Bool
  baseEnvironment : Variables
  baseEnvironmentDisabled : List Text
  collectionVariables : Variables
  collectionDisabled : List Text
  collectionVariablesAreBase : Bool
  folders : List FolderState
  testNamePattern : Option Text
  testCategory : TestCategory
  execution : Option Execution
  executionLocation : List Text

structure ScriptCall where
  script : Text
  request : CollectionRequest
  globalVariables : Variables
  response : Option HttpResponse
  localVariables : Variables
  iterationData : Variables
  options : ScriptRunOptions

structure ScriptRunResult where
  request : CollectionRequest
  environment : Variables
  baseGlobals : Option Variables
  baseGlobalDisabled : Option (List Text)
  globalDisabled : Option (List Text)
  collectionVariables : Option Variables
  baseEnvironment : Option Variables
  baseEnvironmentDisabled : Option (List Text)
  collectionDisabled : Option (List Text)
  folders : Option (List FolderState)
  localVariables : Option Variables
  tests : List ScriptTest
  execution : Option Execution

structure RequestCall where
  key : ItemKey
  attempt : ℕ
  request : CollectionRequest
  requestVariables : Variables

/-- What is asked of the outside, with the number of the question. An executor that throws
answers with the message of the error. -/
structure RunnerCallbacks where
  shouldCancel : ℕ → Bool
  shouldSkip : ℕ → ItemKey → Bool
  aborted : ℕ → Bool
  waitEnds : ℕ → Bool
  executeScript : ℕ → ScriptCall → Except Text ScriptRunResult
  executeRequest : ℕ → RequestCall → Except Text HttpResponse

/-! ## The state -/

/-- Why a run stops before its end. -/
inductive Stop where
  | cancelled
  | bailed
  | flowError
  deriving DecidableEq

/-- What a run does that the outside can see, and the cancellations for which it throws an error,
with the number of the question that follows. -/
inductive Event where
  | step (iteration : ℕ)
  | script (call : ScriptCall)
  | request (call : RequestCall)
  | published (items : List LiveItem)
  | cancelThrown (key : ItemKey) (clock : ℕ)
  | stopped (reason : Stop)

/-- An attempt of a visit, with its result if that is kept. -/
structure Attempt where
  number : ℕ
  passed : Bool
  result : Option ItemResult
  deriving DecidableEq

structure Visit where
  key : ItemKey
  attempts : List Attempt
  deriving DecidableEq

structure RunnerScopes where
  baseGlobals : Variables
  globals : Variables
  baseGlobalDisabled : List Text
  globalDisabled : List Text
  baseEnvironment : Variables
  collectionVariables : Variables
  baseEnvironmentDisabled : List Text
  collectionDisabled : List Text
  folderVariables : Text → Option Variables
  folderDisabled : Text → Option (List Text)

structure RunnerState where
  liveItems : List LiveItem
  results : List ItemResult
  cancelled : Bool
  bailed : Bool
  flowError : Option Text
  scopes : RunnerScopes
  clock : ℕ
  events : List Event
  visits : List Visit

namespace RunnerState

variable (state : RunnerState)

/-- One more question is asked. -/
def tick : RunnerState :=
  { state with clock := state.clock + 1 }

def emit (event : Event) : RunnerState :=
  { state with events := state.events ++ [event] }

def publishLiveItems : RunnerState :=
  state.emit (.published state.liveItems)

/-- A finished status stays. -/
def nextStatus (current : ItemStatus) (status : Option ItemStatus) : ItemStatus :=
  match status with
  | some status => if isRunnerItemFinished current then current else status
  | none => current

def updateFirst (key : ItemKey) (change : LiveItem → LiveItem) : List LiveItem → List LiveItem
  | [] => []
  | item :: items =>
      if item.key = key then change item :: items else item :: updateFirst key change items

def updateLiveItem (key : ItemKey) (status : Option ItemStatus) (patch : ItemPatch) :
    RunnerState :=
  if ∃ item ∈ state.liveItems, item.key = key then
    publishLiveItems
      { state with
        liveItems := updateFirst key
          (fun item => { patch.apply item with status := nextStatus item.status status })
          state.liveItems }
  else state

def finishUnfinished (status : ItemStatus) (errorMessage : Text) : RunnerState :=
  if ∃ item ∈ state.liveItems, isRunnerItemFinished item.status = false then
    publishLiveItems
      { state with
        liveItems := state.liveItems.map fun item =>
          if isRunnerItemFinished item.status then item
          else { item with status, errorMessage := some errorMessage } }
  else state

def stop (reason : Stop) : RunnerState :=
  match reason with
  | .cancelled => { state with cancelled := true }.emit (.stopped .cancelled)
  | .bailed => { state with bailed := true }.emit (.stopped .bailed)
  | .flowError => state.emit (.stopped .flowError)

end RunnerState

end Brunomnia.Runner
