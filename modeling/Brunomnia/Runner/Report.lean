import Brunomnia.Runner.Iterations
import Mathlib.Data.List.Nodup

/-!
# Reports

A run starts with all items pending. Its report accounts for every planned item and every
attempt, whatever the callbacks and the executors answer.
-/

namespace Brunomnia.Runner

open Codegen (Text)

/-! ## The start of a run -/

theorem mem_pendingItems {requests : List CollectionRequest} {iterations : ℕ} {item : LiveItem}
    (itemMem : item ∈ pendingItems requests iterations) :
    ∃ iteration < iterations, ∃ index request, requests[index]? = some request ∧
      item.key = ⟨iteration + 1, index, request.id⟩ := by
  unfold pendingItems at itemMem
  obtain ⟨iteration, iterationMem, itemMem⟩ := List.mem_flatMap.mp itemMem
  obtain ⟨⟨request, index⟩, entryMem, rfl⟩ := List.mem_map.mp itemMem
  exact ⟨iteration, List.mem_range.mp iterationMem, index, request,
    List.mem_zipIdx_iff_getElem?.mp entryMem, rfl⟩

theorem pendingItems_nodup (requests : List CollectionRequest) (iterations : ℕ) :
    ((pendingItems requests iterations).map LiveItem.key).Nodup := by
  unfold pendingItems
  rw [List.map_flatMap, List.nodup_flatMap]
  refine ⟨?_, ?_⟩
  · intro iteration _
    -- the places of the requests tell the keys apart
    apply List.Nodup.of_map ItemKey.index
    rw [List.map_map, List.map_map]
    change (requests.zipIdx.map Prod.snd).Nodup
    rw [List.zipIdx_map_snd]
    exact List.nodup_range'
  · apply List.Pairwise.imp_of_mem _ List.nodup_range
    intro first second _ _ different key firstMem secondMem
    obtain ⟨_, inFirst, rfl⟩ := List.mem_map.mp firstMem
    obtain ⟨_, _, rfl⟩ := List.mem_map.mp inFirst
    obtain ⟨_, inSecond, sameKey⟩ := List.mem_map.mp secondMem
    obtain ⟨_, _, rfl⟩ := List.mem_map.mp inSecond
    have same := congrArg ItemKey.iteration sameKey
    exact different (Nat.succ.inj same).symm

section Start

variable (parse : Text → Option JsonTree) (collection : Collection) (environment : Environment)
  (options : RunnerOptions)

theorem initialState_before :
    BeforeIterations (runnerPlan parse collection environment options)
      (List.range (runnerPlan parse collection environment options).iterations)
      (initialState parse collection environment options) := by
  have noSteps : ∀ iteration,
      stepsOf iteration (initialState parse collection environment options) = 0 :=
    fun _ => rfl
  refine ⟨⟨rfl, rfl, rfl⟩, pendingItems_nodup _ _, ?_, ?_, fun iteration _ => noSteps iteration,
    ?_, ?_⟩
  · intro key keyMem
    obtain ⟨item, itemMem, rfl⟩ := List.mem_map.mp keyMem
    obtain ⟨iteration, _, planned⟩ := mem_pendingItems itemMem
    exact ⟨iteration, planned⟩
  · exact ⟨fun _ noVisit => absurd noVisit List.not_mem_nil, [], rfl, fun _ => rfl, Nat.zero_le 1,
      fun _ noResult => absurd noResult List.not_mem_nil⟩
  · intro iteration
    rw [noSteps iteration]
    exact Nat.zero_le _
  · intro item itemMem notLeft
    obtain ⟨iteration, inRange, index, request, _, keyEq⟩ := mem_pendingItems itemMem
    rw [keyEq, Nat.add_sub_cancel, List.mem_range] at notLeft
    exact absurd inRange notLeft

theorem IsLogged.empty {state : RunnerState} (unstopped : Unstopped state)
    (events : state.events = []) : IsLogged state := by
  refine ⟨?_, ?_, ?_, ?_, ?_⟩
  · simp [events, unstopped.notCancelled]
  · simp [events, unstopped.notBailed]
  · simp [events, unstopped.noFlowError]
  · intro before reason later eventsEq
    simp [events] at eventsEq
  · simp [events, snapshots]

theorem initialState_logged :
    IsLogged (initialState parse collection environment options) :=
  IsLogged.show (IsLogged.empty ⟨rfl, rfl, rfl⟩ rfl) (Keeps.refl _)

theorem initialState_calm (callbacks : RunnerCallbacks) :
    Calm callbacks (initialState parse collection environment options).events :=
  calm_append rfl fun _ noEvent => absurd noEvent List.not_mem_nil

theorem finalState_spec (callbacks : RunnerCallbacks) :
    IterationsSpec (runnerPlan parse collection environment options) callbacks
      (initialState parse collection environment options)
      (finalState parse collection environment options callbacks) :=
  runIterations_spec List.nodup_range
    (initialState_before parse collection environment options)
    (initialState_calm parse collection environment options callbacks)

end Start

/-! ## The report -/

theorem isRunnerItemFinished_iff (status : ItemStatus) :
    isRunnerItemFinished status = true ↔ status = .completed ∨ status = .failed ∨
      status = .canceled ∨ status = .skipped := by
  simp [isRunnerItemFinished]

theorem length_of_allFinished {items : List LiveItem} (finished : AllFinished items) :
    items.length = countStatus items .completed + countStatus items .skipped +
      countStatus items .canceled + countStatus items .failed := by
  unfold countStatus
  induction items with
  | nil => rfl
  | cons item items ih =>
      have others := ih fun other otherMem => finished other (by simp [otherMem])
      have itemFinished := (isRunnerItemFinished_iff item.status).mp (finished item (by simp))
      rw [List.length_cons, others]
      rcases itemFinished with status | status | status | status
      all_goals
        simp only [List.filter_cons, status, decide_true, decide_false, if_true, if_false,
          reduceCtorEq, List.length_cons, Bool.false_eq_true]
        omega

/-- What holds of a run and its report. -/
structure Accounts (plan : RunnerPlan) (final : RunnerState) (report : RunnerReport) : Prop where
  finished : ∀ item ∈ report.liveItems, isRunnerItemFinished item.status = true
  planned : report.planned = report.completed + report.skipped + report.canceled +
    countStatus report.liveItems .failed
  total : report.total = report.passed + report.failed
  totalResults : report.total = report.results.length
  attempts : ∀ visit ∈ final.visits, visit.attempts.length ≤ report.retries + 1 ∧
    AttemptsInOrder visit.key 1 visit.attempts
  results : ∃ last, report.results =
      final.visits.flatMap (fun visit => resultsOf visit.attempts) ++ last ∧
    (report.flowError = none → last = []) ∧ last.length ≤ 1 ∧
    ∀ result ∈ last, result.attempt = 0 ∧ result.passed = false
  cancelled : .stopped .cancelled ∈ final.events ↔ report.cancelled = true
  bailed : .stopped .bailed ∈ final.events ↔ report.bailed = true
  flowError : .stopped .flowError ∈ final.events ↔ report.flowError ≠ none
  quiet : QuietAfterStop final.events
  steps : ∀ iteration, stepsOf iteration final ≤ plan.flowStepLimit
  sticky : (snapshots final.events ++ [report.liveItems]).Pairwise Keeps

section Report

variable (parse : Text → Option JsonTree) (collection : Collection) (environment : Environment)
  (options : RunnerOptions) (callbacks : RunnerCallbacks)

/-- Every run whose pattern of test names is one ends, and its report accounts for it. Where the
cancellations stand for which errors are thrown, no executor is called after one. -/
theorem runCollection_accounts (isPattern : Text → Bool) :
    ((∃ report, runCollection parse isPattern collection environment options callbacks =
        some report) ↔
      ∀ pattern, options.testNamePattern = some pattern →
        (pattern.map utf16Units).sum ≤ 1000 ∧ isPattern pattern = true) ∧
    ∀ report ∈ runCollection parse isPattern collection environment options callbacks,
      Accounts (runnerPlan parse collection environment options)
          (finalState parse collection environment options callbacks) report ∧
        (CancellationsStand callbacks
            (finalState parse collection environment options callbacks).events →
          QuietAfterCancellation
            (finalState parse collection environment options callbacks).events) := by
  have spec := finalState_spec parse collection environment options callbacks
  have logged := (initialState_logged parse collection environment options).runnerMoves spec.moves
  have calls : CallsWhenCalm callbacks
      (initialState parse collection environment options).events :=
    List.pairwise_singleton _ _
  unfold runCollection
  refine ⟨?_, ?_⟩
  · cases options.testNamePattern <;> simp
  · intro report isReport
    split at isReport
    case isFalse => cases isReport
    case isTrue =>
      rw [Option.mem_some_iff] at isReport
      rw [← isReport]
      refine ⟨⟨spec.finished, length_of_allFinished spec.finished,
        (List.length_eq_length_filter_add ItemResult.passed), rfl, spec.recorded.visits,
        spec.recorded.results, logged.cancelled, logged.bailed, logged.flowError, logged.quiet,
        spec.steps, logged.shown⟩, ?_⟩
      exact quietAfterCancellation logged.quiet (calls.runnerMoves spec.moves)

end Report

/-! ## A cancellation that is taken back -/

/-- What a script returns that changes nothing. -/
def unchanged (call : ScriptCall) : ScriptRunResult where
  request := call.request
  environment := call.globalVariables
  baseGlobals := some call.options.baseGlobals
  baseGlobalDisabled := some call.options.baseGlobalDisabled
  globalDisabled := some call.options.globalDisabled
  collectionVariables := some call.options.collectionVariables
  baseEnvironment := some call.options.baseEnvironment
  baseEnvironmentDisabled := some call.options.baseEnvironmentDisabled
  collectionDisabled := some call.options.collectionDisabled
  folders := some call.options.folders
  localVariables := some call.localVariables
  tests := []
  execution := none

def plainCallbacks : RunnerCallbacks where
  shouldCancel _ := false
  shouldSkip _ _ := false
  aborted _ := false
  waitEnds _ := true
  executeScript _ call := .ok (unchanged call)
  executeRequest _ _ := .ok ⟨200⟩

/-- Callbacks that answer some questions for a cancellation with yes. -/
def cancellingCallbacks (cancels : ℕ → Bool) : RunnerCallbacks :=
  { plainCallbacks with shouldCancel := cancels }

def retriedCollection : Collection where
  name := ['c']
  requests := [{
    id := ['r']
    name := ['r']
    folderId := []
    headers := []
    inheritFolderAuth := false
    auth := ⟨.none, false, [], [], [], [], [], [], .header, [], []⟩
    preRequestScript := []
    tests := [] }]
  folders := []
  environment := []
  subEnvironments := []
  activeSubEnvironmentId := none

def retryOptions : RunnerOptions where
  iterations := some 1
  retries := some 1
  delayMs := none
  dataRows := []
  environmentScopes := none
  requestIds := none
  testNamePattern := none
  bail := false
  flowStepLimit := none

/-- The last state of a run of the only request, with one retry. -/
def retriedState (cancels : ℕ → Bool) : RunnerState :=
  finalState (fun _ => none) retriedCollection ⟨['e'], [], []⟩ retryOptions
    (cancellingCallbacks cancels)

/-- The first question after the script is the sixth one, and cancels; so do the later ones. -/
theorem cancelledRun_accounts :
    ∃ report ∈ runCollection (fun _ => none) (fun _ => true) retriedCollection ⟨['e'], [], []⟩
        retryOptions (cancellingCallbacks fun number => decide (6 ≤ number)),
      (report.cancelled, report.canceled) = (true, 1) ∧
        QuietAfterCancellation (retriedState fun number => decide (6 ≤ number)).events := by
  have stand : CancellationsStand (cancellingCallbacks fun number => decide (6 ≤ number))
      (retriedState fun number => decide (6 ≤ number)).events := by
    unfold CancellationsStand
    decide
  have isCancelled : ((runCollection (fun _ => none) (fun _ => true) retriedCollection
      ⟨['e'], [], []⟩ retryOptions (cancellingCallbacks fun number => decide (6 ≤ number))).map
        fun report => (report.cancelled, report.canceled)) = some (true, 1) := by
    decide
  obtain ⟨report, isReport, counts⟩ := Option.map_eq_some_iff.mp isCancelled
  have accounts := (runCollection_accounts (fun _ => none) retriedCollection ⟨['e'], [], []⟩
    retryOptions (cancellingCallbacks fun number => decide (6 ≤ number)) fun _ => true).2 report
      isReport
  exact ⟨report, isReport, counts, accounts.2 stand⟩

/-- If only the sixth question cancels, the request is tried again and passes. -/
theorem takenBack_calls :
    ((runCollection (fun _ => none) (fun _ => true) retriedCollection ⟨['e'], [], []⟩
      retryOptions (cancellingCallbacks fun number => decide (number = 6))).map
        fun report => (report.cancelled, report.failed, report.passed)) = some (false, 1, 1) ∧
      ¬ QuietAfterCancellation (retriedState fun number => decide (number = 6)).events := by
  decide

end Brunomnia.Runner
