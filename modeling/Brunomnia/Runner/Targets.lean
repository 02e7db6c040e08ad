import Brunomnia.Runner.Visits

/-!
# Targets of a visit

A script can name the request to continue with. The attempts of a visit may name different
ones: the last attempt decides, and in it the script after the response before the one before
the request.
-/

namespace Brunomnia.Runner

open Codegen (Text)

/-- The user interrupts nothing. -/
structure Uninterrupted (callbacks : RunnerCallbacks) : Prop where
  notCancelled : ∀ number, callbacks.shouldCancel number = false
  notSkipped : ∀ number key, callbacks.shouldSkip number key = false
  notAborted : ∀ number, callbacks.aborted number = false
  waitEnds : ∀ number, callbacks.waitEnds number = true

theorem Uninterrupted.calm {callbacks : RunnerCallbacks} (uninterrupted : Uninterrupted callbacks)
    (events : List Event) : Calm callbacks events := by
  intro event _
  cases event with
  | cancelThrown key clock =>
      simp [Event.stands, cancelsAt, uninterrupted.notCancelled, uninterrupted.notAborted]
  | _ => rfl

/-! ## What scripts name -/

section Calls

variable (callbacks : RunnerCallbacks) (first last : ℕ)

/-- A script that is run between two questions, and how it ends. -/
def ScriptEnds (category : TestCategory) (script : Text) (ending : Except Text ScriptRunResult) :
    Prop :=
  ∃ number call, first ≤ number ∧ number < last ∧ call.script = script ∧
    call.options.testCategory = category ∧ callbacks.executeScript number call = ending

/-- A request that is sent between two questions, and how it ends. -/
def RequestEnds (key : ItemKey) (attempt : ℕ) (request : CollectionRequest)
    (ending : Except Text HttpResponse) : Prop :=
  ∃ number call, first ≤ number ∧ number < last ∧ call.key = key ∧ call.attempt = attempt ∧
    call.request = request ∧ callbacks.executeRequest number call = ending

end Calls

def skipsRequest (result : ScriptRunResult) : Bool :=
  (result.execution.map Execution.skipRequest).getD false

/-- The request that an attempt continues with, by its scripts between two questions. -/
inductive AttemptTarget (callbacks : RunnerCallbacks) (key : ItemKey) (attempt : ℕ)
    (script : Text) (first last : ℕ) : Text → Prop where
  | preRequestThrows {message : Text}
      (preRequest : ScriptEnds callbacks first last .preRequest script (.error message)) :
      AttemptTarget callbacks key attempt script first last []
  | requestSkipped {before : ScriptRunResult}
      (preRequest : ScriptEnds callbacks first last .preRequest script (.ok before))
      (skips : skipsRequest before = true) :
      AttemptTarget callbacks key attempt script first last ((nextOf before.execution).getD [])
  | requestThrows {before : ScriptRunResult} {message : Text}
      (preRequest : ScriptEnds callbacks first last .preRequest script (.ok before))
      (sends : skipsRequest before = false)
      (sent : RequestEnds callbacks first last key attempt before.request (.error message)) :
      AttemptTarget callbacks key attempt script first last []
  | testsThrow {before : ScriptRunResult} {response : HttpResponse} {message : Text}
      (preRequest : ScriptEnds callbacks first last .preRequest script (.ok before))
      (sends : skipsRequest before = false)
      (sent : RequestEnds callbacks first last key attempt before.request (.ok response))
      (tested : ScriptEnds callbacks first last .afterResponse before.request.tests
        (.error message)) :
      AttemptTarget callbacks key attempt script first last []
  | answered {before after : ScriptRunResult} {response : HttpResponse}
      (preRequest : ScriptEnds callbacks first last .preRequest script (.ok before))
      (sends : skipsRequest before = false)
      (sent : RequestEnds callbacks first last key attempt before.request (.ok response))
      (tested : ScriptEnds callbacks first last .afterResponse before.request.tests
        (.ok after)) :
      AttemptTarget callbacks key attempt script first last
        ((nextOf after.execution).getD ((nextOf before.execution).getD []))

theorem ScriptEnds.mono {callbacks : RunnerCallbacks} {first last earlier later : ℕ}
    {category : TestCategory} {script : Text} {ending : Except Text ScriptRunResult}
    (before : earlier ≤ first) (behind : last ≤ later)
    (ends : ScriptEnds callbacks first last category script ending) :
    ScriptEnds callbacks earlier later category script ending := by
  rcases ends with ⟨number, call, le, lt, rest⟩
  exact ⟨number, call, le_trans before le, lt_of_lt_of_le lt behind, rest⟩

theorem RequestEnds.mono {callbacks : RunnerCallbacks} {first last earlier later : ℕ}
    {key : ItemKey} {attempt : ℕ} {request : CollectionRequest}
    {ending : Except Text HttpResponse} (before : earlier ≤ first) (behind : last ≤ later)
    (ends : RequestEnds callbacks first last key attempt request ending) :
    RequestEnds callbacks earlier later key attempt request ending := by
  rcases ends with ⟨number, call, le, lt, rest⟩
  exact ⟨number, call, le_trans before le, lt_of_lt_of_le lt behind, rest⟩

theorem AttemptTarget.mono {callbacks : RunnerCallbacks} {first last earlier later : ℕ}
    {key : ItemKey} {attempt : ℕ} {script target : Text} (before : earlier ≤ first)
    (behind : last ≤ later)
    (isTarget : AttemptTarget callbacks key attempt script first last target) :
    AttemptTarget callbacks key attempt script earlier later target := by
  cases isTarget with
  | preRequestThrows preRequest => exact .preRequestThrows (preRequest.mono before behind)
  | requestSkipped preRequest skips =>
      exact .requestSkipped (preRequest.mono before behind) skips
  | requestThrows preRequest sends sent =>
      exact .requestThrows (preRequest.mono before behind) sends (sent.mono before behind)
  | testsThrow preRequest sends sent tested =>
      exact .testsThrow (preRequest.mono before behind) sends (sent.mono before behind)
        (tested.mono before behind)
  | answered preRequest sends sent tested =>
      exact .answered (preRequest.mono before behind) sends (sent.mono before behind)
        (tested.mono before behind)

/-! ## The clock -/

section Clock

variable (state : RunnerState)

@[simp] theorem tick_clock : state.tick.clock = state.clock + 1 := rfl

@[simp] theorem emit_clock (event : Event) : (state.emit event).clock = state.clock := rfl

@[simp] theorem stop_clock (reason : Stop) : (state.stop reason).clock = state.clock := by
  cases reason <;> rfl

@[simp] theorem updateLiveItem_clock (key : ItemKey) (status : Option ItemStatus)
    (patch : ItemPatch) : (state.updateLiveItem key status patch).clock = state.clock := by
  rcases updateLiveItem_cases state key status patch with ⟨items, events, updated⟩
  rw [updated]

@[simp] theorem finishUnfinished_clock (status : ItemStatus) (errorMessage : Text) :
    (state.finishUnfinished status errorMessage).clock = state.clock := by
  rcases finishUnfinished_cases state status errorMessage with ⟨items, events, finished⟩
  rw [finished]

end Clock

section Attempts

variable {plan : RunnerPlan} {callbacks : RunnerCallbacks} {state : RunnerState}

theorem recordResult_clock (visiting : Visiting) (attempt : ℕ) (sent : Sent)
    (tests : List ScriptTest) (error : Option Text) :
    (recordResult plan visiting attempt sent tests error state).2.2.clock = state.clock := by
  unfold recordResult
  dsimp only
  generalize (!isError error && sent.response.isSome &&
    decide (0 < (sent.response.map HttpResponse.status).getD 0 ∧
      (sent.response.map HttpResponse.status).getD 0 < 400) &&
    tests.all fun test => !scriptTestFailed test) = passed
  generalize (if error = none then sent.next else []) = next
  generalize ItemPatch.mk _ _ _ _ _ = patch
  generalize ItemResult.mk _ _ _ _ _ _ _ _ = result
  have recorded : ∀ retain : Prop, ∀ _ : Decidable retain,
      (if retain then { state with results := state.results ++ [result] } else state).clock =
        state.clock := by
    intro retain _
    split <;> rfl
  split
  · dsimp only
    split
    · rw [finishUnfinished_clock, stop_clock, updateLiveItem_clock, recorded]
    · rw [updateLiveItem_clock, recorded]
  · rw [updateLiveItem_clock, recorded]

theorem interruption_none (uninterrupted : Uninterrupted callbacks) (key : ItemKey) :
    interruption callbacks key state = (none, state.tick.tick) := by
  rw [interruption, uninterrupted.notSkipped, uninterrupted.notCancelled,
    uninterrupted.notAborted]
  rfl

theorem waitFor_ends (uninterrupted : Uninterrupted callbacks) :
    ∃ waited, waitFor plan callbacks state = (true, waited) ∧ state.clock ≤ waited.clock := by
  unfold waitFor
  split
  · rw [uninterrupted.waitEnds]
    exact ⟨_, rfl, Nat.le_succ _⟩
  · exact ⟨_, rfl, le_refl _⟩

/-- What the end of an attempt makes of the target that its scripts leave. -/
def Ending.target (ending : Ending) (next : Text) : Text :=
  match ending with
  | .answered _ | .skippedByScript _ => next
  | .failed _ => []

def AttemptEnd.target : AttemptEnd → Text
  | .again next | .finished next => next

theorem recordResult_target (visiting : Visiting) (attempt : ℕ) (sent : Sent)
    (tests : List ScriptTest) (error : Option Text) :
    (recordResult plan visiting attempt sent tests error state).1.target =
      if error = none then sent.next else [] := by
  unfold recordResult
  dsimp only
  split
  · rfl
  · rfl

theorem endAttempt_target (uninterrupted : Uninterrupted callbacks) (visiting : Visiting)
    (attempt : ℕ) (sent : Sent) :
    (endAttempt plan callbacks visiting attempt sent state).1.target =
      sent.ending.target sent.next := by
  unfold endAttempt
  cases sent.ending with
  | answered tests =>
      dsimp only
      rw [recordResult_target]
      rfl
  | skippedByScript tests => rfl
  | failed message =>
      dsimp only
      rw [interruption_none uninterrupted]
      dsimp only
      rw [recordResult_target]
      rfl

theorem endAttempt_clock (uninterrupted : Uninterrupted callbacks) (visiting : Visiting)
    (attempt : ℕ) (sent : Sent) :
    state.clock ≤ (endAttempt plan callbacks visiting attempt sent state).2.2.clock := by
  unfold endAttempt
  cases sent.ending with
  | answered tests =>
      dsimp only
      rw [recordResult_clock]
  | skippedByScript tests => simp
  | failed message =>
      dsimp only
      rw [interruption_none uninterrupted]
      dsimp only
      rw [recordResult_clock]
      exact Nat.le_add_right state.clock 2

theorem afterResponse_spec (uninterrupted : Uninterrupted callbacks) (visiting : Visiting)
    (configured : ConfiguredRequest) (before : ScriptRunResult) (response : HttpResponse) :
    ∃ sent ended, afterResponse plan callbacks visiting configured before response state =
        (sent, ended) ∧ state.clock < ended.clock ∧
      ((∃ message, ScriptEnds callbacks state.clock ended.clock .afterResponse
          before.request.tests (.error message) ∧ sent.ending.target sent.next = []) ∨
        ∃ after, ScriptEnds callbacks state.clock ended.clock .afterResponse
          before.request.tests (.ok after) ∧
          sent.ending.target sent.next =
            (nextOf after.execution).getD ((nextOf before.execution).getD [])) := by
  unfold afterResponse
  dsimp only
  generalize callEq : ScriptCall.mk _ _ _ _ _ _ _ = call
  have isCall : call.script = before.request.tests ∧
      call.options.testCategory = .afterResponse := by
    rw [← callEq]
    exact ⟨rfl, rfl⟩
  unfold callScript
  cases ran : callbacks.executeScript state.clock call with
  | error message =>
      refine ⟨_, _, rfl, Nat.lt_succ_self _, Or.inl ⟨message, ?_, rfl⟩⟩
      exact ⟨state.clock, call, le_refl _, Nat.lt_succ_self _, isCall.1, isCall.2, ran⟩
  | ok after =>
      dsimp only
      rw [interruption_none uninterrupted]
      have later : state.clock < state.clock + 3 := by omega
      refine ⟨_, _, rfl, later, Or.inr ⟨after, ?_, rfl⟩⟩
      exact ⟨state.clock, call, le_refl _, later, isCall.1, isCall.2, ran⟩

/-- The rest of an attempt whose first script ended well before it. -/
theorem sendRequest_target (uninterrupted : Uninterrupted callbacks) (visiting : Visiting)
    (configured : ConfiguredRequest) (attempt : ℕ) {before : ScriptRunResult} {script : Text}
    {first : ℕ}
    (preRequest : ScriptEnds callbacks first state.clock .preRequest script (.ok before)) :
    ∃ sent ended, sendRequest plan callbacks visiting configured attempt before state =
        (sent, ended) ∧ state.clock ≤ ended.clock ∧
      AttemptTarget callbacks visiting.key attempt script first ended.clock
        (sent.ending.target sent.next) := by
  have started : first ≤ state.clock := by
    rcases preRequest with ⟨number, _, le, lt, _⟩
    omega
  unfold sendRequest
  dsimp only
  generalize shownEq : state.updateLiveItem visiting.key none _ = shown
  have shownClock : shown.clock = state.clock := by
    rw [← shownEq, updateLiveItem_clock]
  split
  case isTrue skips =>
    refine ⟨_, _, rfl, by rw [shownClock], ?_⟩
    rw [shownClock]
    exact .requestSkipped preRequest skips
  case isFalse sends =>
    rw [Bool.not_eq_true] at sends
    generalize callEq : RequestCall.mk _ _ _ _ = call
    have isCall : call.key = visiting.key ∧ call.attempt = attempt ∧
        call.request = before.request := by
      rw [← callEq]
      exact ⟨rfl, rfl, rfl⟩
    unfold callRequest
    cases ran : callbacks.executeRequest shown.clock call with
    | error message =>
        have sent : RequestEnds callbacks first (shown.clock + 1) visiting.key attempt
            before.request (.error message) :=
          ⟨shown.clock, call, by omega, Nat.lt_succ_self _, isCall.1, isCall.2.1, isCall.2.2, ran⟩
        have later : state.clock ≤ shown.clock + 1 := by omega
        exact ⟨_, _, rfl, later, .requestThrows (preRequest.mono (le_refl _) later) sends sent⟩
    | ok response =>
        dsimp only
        rw [interruption_none uninterrupted]
        dsimp only
        generalize askedEq : ((shown.emit (.request call)).tick.tick.tick) = asked
        have askedClock : asked.clock = shown.clock + 3 := by
          rw [← askedEq]
          rfl
        rcases @afterResponse_spec plan callbacks asked uninterrupted visiting configured before
          response with ⟨sent, ended, eq, later, tested⟩
        have sending : RequestEnds callbacks first ended.clock visiting.key attempt
            before.request (.ok response) :=
          ⟨shown.clock, call, by omega, by omega, isCall.1, isCall.2.1, isCall.2.2, ran⟩
        have running := preRequest.mono (le_refl _) (show state.clock ≤ ended.clock by omega)
        refine ⟨sent, ended, eq, by omega, ?_⟩
        rcases tested with ⟨message, tested, target⟩ | ⟨after, tested, target⟩
        · rw [target]
          exact .testsThrow running sends sending (tested.mono (by omega) (le_refl _))
        · rw [target]
          exact .answered running sends sending (tested.mono (by omega) (le_refl _))

theorem runBody_target (uninterrupted : Uninterrupted callbacks) (visiting : Visiting)
    (configured : ConfiguredRequest) (attempt : ℕ) (next : Text) :
    ∃ sent ended, runBody plan callbacks visiting configured attempt next state =
        (sent, ended) ∧ state.clock ≤ ended.clock ∧
      AttemptTarget callbacks visiting.key attempt configured.request.preRequestScript
        state.clock ended.clock (sent.ending.target sent.next) := by
  unfold runBody
  dsimp only
  generalize callEq : ScriptCall.mk _ _ _ _ _ _ _ = call
  have isCall : call.script = configured.request.preRequestScript ∧
      call.options.testCategory = .preRequest := by
    rw [← callEq]
    exact ⟨rfl, rfl⟩
  unfold callScript
  cases ran : callbacks.executeScript state.clock call with
  | error message =>
      have preRequest : ScriptEnds callbacks state.clock (state.clock + 1) .preRequest
          configured.request.preRequestScript (.error message) :=
        ⟨state.clock, call, le_refl _, Nat.lt_succ_self _, isCall.1, isCall.2, ran⟩
      exact ⟨_, _, rfl, Nat.le_succ _, .preRequestThrows preRequest⟩
  | ok before =>
      dsimp only
      rw [interruption_none uninterrupted]
      dsimp only
      generalize startedEq : RunnerState.mk _ _ _ _ _ _ _ _ _ = started
      have startedClock : started.clock = state.clock + 3 := by
        rw [← startedEq]
        rfl
      have preRequest : ScriptEnds callbacks state.clock started.clock .preRequest
          configured.request.preRequestScript (.ok before) :=
        ⟨state.clock, call, le_refl _, by omega, isCall.1, isCall.2, ran⟩
      rcases sendRequest_target uninterrupted visiting configured attempt preRequest with
        ⟨sent, ended, eq, later, target⟩
      exact ⟨sent, ended, eq, by omega, target⟩

/-! ## Visits -/

def preRequestScriptOf (plan : RunnerPlan) (visiting : Visiting) : Text :=
  (applyCollectionConfiguration plan.collection visiting.original
    plan.environment).request.preRequestScript

theorem runAttempt_target (uninterrupted : Uninterrupted callbacks) (visiting : Visiting)
    (attempt : ℕ) (next : Text) :
    state.clock ≤ (runAttempt plan callbacks visiting attempt next state).2.2.clock ∧
      AttemptTarget callbacks visiting.key attempt (preRequestScriptOf plan visiting) state.clock
        (runAttempt plan callbacks visiting attempt next state).2.2.clock
        (runAttempt plan callbacks visiting attempt next state).1.target := by
  unfold runAttempt
  rw [interruption_none uninterrupted]
  dsimp only
  generalize shownEq : state.tick.tick.updateLiveItem visiting.key _ _ = shown
  have shownClock : shown.clock = state.clock + 2 := by
    rw [← shownEq, updateLiveItem_clock]
    rfl
  rcases @waitFor_ends plan callbacks shown uninterrupted with ⟨waited, waitEq, waitClock⟩
  rw [waitEq]
  dsimp only
  rcases @runBody_target plan callbacks waited uninterrupted visiting
    (applyCollectionConfiguration plan.collection visiting.original plan.environment) attempt
    next with ⟨sent, ended, bodyEq, bodyClock, target⟩
  rw [bodyEq]
  dsimp only
  have endClock := @endAttempt_clock plan callbacks ended uninterrupted visiting attempt sent
  rw [endAttempt_target uninterrupted]
  exact ⟨by omega, target.mono (by omega) endClock⟩

/-- The last one of the attempts that are made up to a state decides about the target. -/
structure LastAttempt (plan : RunnerPlan) (callbacks : RunnerCallbacks) (visiting : Visiting)
    (state : RunnerState) (attempts : List Attempt) (number : ℕ) (target : Text)
    (after : RunnerState) (made : Attempt) (next : Text) (started : RunnerState) : Prop where
  isLast : attempts.getLast? = some made
  later : state.clock ≤ started.clock
  runs : runAttempt plan callbacks visiting number next started = (.finished target, made, after)
  isTarget : AttemptTarget callbacks visiting.key number (preRequestScriptOf plan visiting)
    started.clock after.clock target

theorem runAttempts_target (uninterrupted : Uninterrupted callbacks) (visiting : Visiting)
    (remaining first : ℕ) (next : Text) {target : Text} {attempts : List Attempt}
    {after : RunnerState}
    (ran : runAttempts plan callbacks visiting remaining first next state =
      ((true, target, attempts), after)) :
    ∃ number made earlier started, number + 1 = first + attempts.length ∧
      LastAttempt plan callbacks visiting state attempts number target after made earlier
        started := by
  induction remaining generalizing first next state attempts with
  | zero =>
      unfold runAttempts at ran
      cases ran
  | succ remaining ih =>
      unfold runAttempts at ran
      rcases @runAttempt_target plan callbacks state uninterrupted visiting first next with
        ⟨clock, isTarget⟩
      rcases attemptEq : runAttempt plan callbacks visiting first next state with
        ⟨ending, made, ended⟩
      rw [attemptEq] at ran clock isTarget
      cases ending with
      | finished last =>
          cases ran
          exact ⟨first, made, next, state, rfl, rfl, le_refl _, attemptEq, isTarget⟩
      | again last =>
          dsimp only at ran
          rcases laterEq : runAttempts plan callbacks visiting remaining (first + 1) last ended with
            ⟨⟨finished, lastTarget, others⟩, later⟩
          rw [laterEq] at ran
          cases ran
          rcases ih (first + 1) last laterEq with
            ⟨number, decides, earlier, started, numbered, isLast, notBefore, runs, isTarget⟩
          refine ⟨number, decides, earlier, started, ?_, ?_, le_trans clock notBefore, runs,
            isTarget⟩
          · change number + 1 = first + (made :: others).length
            rw [List.length_cons]
            omega
          · rw [List.getLast?_cons, isLast]
            rfl

end Attempts

end Brunomnia.Runner
