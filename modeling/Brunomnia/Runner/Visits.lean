import Brunomnia.Runner.Items
import Brunomnia.Runner.Moves

/-!
# Visits

A visit makes its attempts one after the other until one ends it, and then its item is
finished. Only an attempt that failed is followed by another one.
-/

namespace Brunomnia.Runner

open Codegen (Text)

theorem keeps_of_visitMove {plan : RunnerPlan} {callbacks : RunnerCallbacks}
    {state after : RunnerState} (move : VisitMove plan callbacks state after) :
    Keeps state.liveItems after.liveItems := by
  cases move with
  | update key status patch => exact state.keeps_updateLiveItem key status patch
  | finish status errorMessage => exact state.keeps_finishUnfinished status errorMessage
  | _ => exact Keeps.refl _

theorem keeps_of_visitMoves {plan : RunnerPlan} {callbacks : RunnerCallbacks}
    {state after : RunnerState} (moves : VisitMoves plan callbacks state after) :
    Keeps state.liveItems after.liveItems := by
  induction moves with
  | refl => exact Keeps.refl _
  | tail _ move ih => exact ih.trans (keeps_of_visitMove move)

structure AttemptSpec (plan : RunnerPlan) (callbacks : RunnerCallbacks) (key : ItemKey)
    (number : ℕ) (state : RunnerState) (ending : AttemptEnd) (made : Attempt)
    (after : RunnerState) : Prop where
  moves : VisitMoves plan callbacks state after
  numbered : made.number = number
  results : after.results = state.results ++ made.result.toList
  visits : after.visits = state.visits
  result : ∀ result, made.result = some result →
    result.key = key ∧ result.attempt = number ∧ result.passed = made.passed
  again : ∀ next, ending = .again next →
    Unstopped after ∧ made.passed = false ∧ number ≤ plan.retries
  finished : ∀ next, ending = .finished next →
    after.flowError = none ∧ Finished key after.liveItems
  bailed : after.bailed = true → AllFinished after.liveItems
  calm : after.cancelled = false → Calm callbacks after.events

section Attempts

variable {plan : RunnerPlan} {callbacks : RunnerCallbacks} {state : RunnerState}

theorem AttemptSpec.prepend {key : ItemKey} {number : ℕ} {middle after : RunnerState}
    {ending : AttemptEnd} {made : Attempt} (moves : VisitMoves plan callbacks state middle)
    (results : middle.results = state.results) (visits : middle.visits = state.visits)
    (spec : AttemptSpec plan callbacks key number middle ending made after) :
    AttemptSpec plan callbacks key number state ending made after where
  moves := moves.trans spec.moves
  numbered := spec.numbered
  results := by rw [spec.results, results]
  visits := spec.visits.trans visits
  result := spec.result
  again := spec.again
  finished := spec.finished
  bailed := spec.bailed
  calm := spec.calm

theorem AttemptSpec.continues {key : ItemKey} {number : ℕ} {middle after : RunnerState}
    {ending : AttemptEnd} {made : Attempt} (first : Continues plan callbacks state middle)
    (spec : AttemptSpec plan callbacks key number middle ending made after) :
    AttemptSpec plan callbacks key number state ending made after :=
  spec.prepend first.moves first.results first.visits

theorem updateLiveItem_flags (state : RunnerState) (key : ItemKey) (status : Option ItemStatus)
    (patch : ItemPatch) :
    (state.updateLiveItem key status patch).flowError = state.flowError ∧
      (state.updateLiveItem key status patch).bailed = state.bailed ∧
      (state.updateLiveItem key status patch).cancelled = state.cancelled := by
  obtain ⟨items, events, updated⟩ := updateLiveItem_cases state key status patch
  rw [updated]
  exact ⟨rfl, rfl, rfl⟩

theorem finishUnfinished_flags (state : RunnerState) (status : ItemStatus) (errorMessage : Text) :
    (state.finishUnfinished status errorMessage).flowError = state.flowError ∧
      (state.finishUnfinished status errorMessage).bailed = state.bailed ∧
      (state.finishUnfinished status errorMessage).cancelled = state.cancelled := by
  obtain ⟨items, events, finished⟩ := finishUnfinished_cases state status errorMessage
  rw [finished]
  exact ⟨rfl, rfl, rfl⟩

theorem ended_spec {key : ItemKey} {status : ItemStatus} (number : ℕ) (patch : ItemPatch)
    (next : Text) {middle : RunnerState} (moves : VisitMoves plan callbacks state middle)
    (results : middle.results = state.results) (visits : middle.visits = state.visits)
    (noFlowError : middle.flowError = none) (notBailed : middle.bailed = false)
    (nodup : (middle.liveItems.map LiveItem.key).Nodup)
    (finishes : isRunnerItemFinished status = true)
    (calm : middle.cancelled = false → Calm callbacks middle.events) :
    AttemptSpec plan callbacks key number state (.finished next) ⟨number, false, none⟩
      (middle.updateLiveItem key (some status) patch) := by
  obtain ⟨sameFlow, sameBailed, sameCancelled⟩ :=
    updateLiveItem_flags middle key (some status) patch
  refine ⟨moves.tail (.update _ _ _ _), rfl, ?_, ?_, by simp, by simp, ?_, ?_, ?_⟩
  · simp [results]
  · simp [visits]
  · intro _ _
    refine ⟨?_, RunnerState.finished_updateLiveItem middle nodup finishes patch⟩
    rw [sameFlow, noFlowError]
  · intro isBailed
    rw [sameBailed, notBailed] at isBailed
    cases isBailed
  · intro notCancelled
    rw [sameCancelled] at notCancelled
    exact (calm_updateLiveItem middle callbacks key (some status) patch).mpr (calm notCancelled)

theorem interrupted_spec (unstopped : Unstopped state)
    (nodup : (state.liveItems.map LiveItem.key).Nodup) (visiting : Visiting) (number : ℕ)
    (control : Control) (calm : control ≠ .canceled → Calm callbacks state.events)
    (patch : ItemPatch) (next : Text) :
    AttemptSpec plan callbacks visiting.key number state (.finished next)
      ⟨number, false, none⟩ (interrupted visiting number control patch state) := by
  have finishes : isRunnerItemFinished control.status = true := by cases control <;> rfl
  unfold interrupted
  dsimp only
  split
  · refine ended_spec number _ next (.single (.cancel state)) rfl rfl unstopped.noFlowError
      unstopped.notBailed nodup finishes fun notCancelled => ?_
    cases notCancelled
  · next isSkipped =>
      exact ended_spec number _ next .refl rfl rfl unstopped.noFlowError unstopped.notBailed nodup
        finishes fun _ => calm isSkipped

/-- A result that is kept. -/
structure Records (plan : RunnerPlan) (callbacks : RunnerCallbacks) (made : Option ItemResult)
    (state after : RunnerState) : Prop where
  moves : VisitMoves plan callbacks state after
  unstopped : Unstopped after
  results : after.results = state.results ++ made.toList
  visits : after.visits = state.visits
  liveItems : after.liveItems = state.liveItems
  events : after.events = state.events

theorem records_result (plan : RunnerPlan) (callbacks : RunnerCallbacks)
    (unstopped : Unstopped state) (retain : Prop) [Decidable retain]
    (result : ItemResult) :
    Records plan callbacks (if retain then some result else none) state
      (if retain then { state with results := state.results ++ [result] } else state) := by
  split
  · exact ⟨.single (.result state result),
      ⟨unstopped.notCancelled, unstopped.notBailed, unstopped.noFlowError⟩, rfl, rfl, rfl, rfl⟩
  · exact ⟨.refl, unstopped, by simp, rfl, rfl, rfl⟩

/-- An attempt with a result passes, or it is repeated, or it ends the visit. -/
theorem recordResult_spec (unstopped : Unstopped state) (calm : Calm callbacks state.events)
    (nodup : (state.liveItems.map LiveItem.key).Nodup) (visiting : Visiting) (number : ℕ)
    (sent : Sent) (tests : List ScriptTest) (error : Option Text) :
    AttemptSpec plan callbacks visiting.key number state
      (recordResult plan visiting number sent tests error state).1
      (recordResult plan visiting number sent tests error state).2.1
      (recordResult plan visiting number sent tests error state).2.2 := by
  unfold recordResult
  dsimp only
  generalize (!isError error && sent.response.isSome &&
    decide (0 < (sent.response.map HttpResponse.status).getD 0 ∧
      (sent.response.map HttpResponse.status).getD 0 < 400) &&
    tests.all fun test => !scriptTestFailed test) = passed
  generalize (if error = none then sent.next else []) = next
  generalize ItemPatch.mk _ _ _ _ _ = patch
  generalize resultEq : ItemResult.mk _ _ _ _ _ _ _ _ = result
  have isResult : ∀ found, (if plan.testNamePattern = none ∨ tests ≠ [] ∨ passed = false then
      some result else none) = some found →
        found.key = visiting.key ∧ found.attempt = number ∧ found.passed = passed := by
    intro found foundEq
    split at foundEq
    · rw [Option.some.injEq] at foundEq
      rw [← foundEq, ← resultEq]
      exact ⟨rfl, rfl, rfl⟩
    · cases foundEq
  have records := records_result plan callbacks unstopped
    (plan.testNamePattern = none ∨ tests ≠ [] ∨ passed = false) result
  generalize (if plan.testNamePattern = none ∨ tests ≠ [] ∨ passed = false then
    { state with results := state.results ++ [result] } else state) = recorded at records
  generalize (if plan.testNamePattern = none ∨ tests ≠ [] ∨ passed = false then
    some result else none) = made at records isResult
  have recordedNodup : (recorded.liveItems.map LiveItem.key).Nodup := by
    rw [records.liveItems]
    exact nodup
  have shown := Continues.updateLiveItem plan callbacks records.unstopped visiting.key
  have recordedCalm : Calm callbacks recorded.events := by
    rw [records.events]
    exact calm
  have results : ∀ after : RunnerState, after.results = recorded.results →
      after.results = state.results ++ made.toList := fun after same => by
    rw [same, records.results]
  split
  case isFalse notExhausted =>
    rw [Bool.or_eq_true, not_or, Bool.not_eq_true, decide_eq_true_eq, not_lt] at notExhausted
    refine ⟨records.moves.trans (shown _ patch).moves, rfl, results _ (shown _ patch).results,
      (shown _ patch).visits.trans records.visits, isResult, ?_, ?_, ?_,
      fun _ => (shown _ patch).calm recordedCalm⟩
    · exact fun _ _ => ⟨(shown _ patch).unstopped, notExhausted.1, notExhausted.2⟩
    · intro _ isFinished
      cases isFinished
    · intro isBailed
      rw [(shown _ patch).unstopped.notBailed] at isBailed
      cases isBailed
  case isTrue exhausted =>
    have finishes : isRunnerItemFinished
        (if (isError error || sent.response.isNone) = true then .failed else .completed) =
          true := by
      split <;> rfl
    generalize (if (isError error || sent.response.isNone) = true then ItemStatus.failed
      else ItemStatus.completed) = live at finishes
    have finished : Finished visiting.key _ :=
      RunnerState.finished_updateLiveItem recorded recordedNodup finishes patch
    have shownLive := shown (some live) patch
    generalize recorded.updateLiveItem visiting.key (some live) patch = shownState
      at finished shownLive
    have ends : ∀ after : RunnerState, VisitMoves plan callbacks shownState after →
        after.results = shownState.results → after.visits = shownState.visits →
        after.flowError = shownState.flowError →
        (after.bailed = true → AllFinished after.liveItems) → Calm callbacks after.events →
        AttemptSpec plan callbacks visiting.key number state
          (.finished next) ⟨number, passed, made⟩ after := by
      intro after moves sameResults sameVisits sameFlow bailed afterCalm
      refine ⟨(records.moves.trans shownLive.moves).trans moves, rfl,
        results _ (sameResults.trans shownLive.results),
        (sameVisits.trans shownLive.visits).trans records.visits, isResult, ?_, ?_, bailed,
        fun _ => afterCalm⟩
      · intro _ isAgain
        cases isAgain
      · intro _ _
        refine ⟨?_, finished.keeps (keeps_of_visitMoves moves)⟩
        rw [sameFlow, shownLive.unstopped.noFlowError]
    split
    · apply ends
      · exact (Relation.ReflTransGen.single (.bail shownState)).tail (.finish _ _ _)
      · simp [RunnerState.stop, RunnerState.emit]
      · simp [RunnerState.stop, RunnerState.emit]
      · exact (finishUnfinished_flags (shownState.stop .bailed) _ _).1
      · exact fun _ => RunnerState.finished_finishUnfinished _ rfl _
      · exact (calm_finishUnfinished _ callbacks _ _).mpr
          (calm_append rfl (shownLive.calm recordedCalm))
    · refine ends shownState .refl rfl rfl rfl ?_ (shownLive.calm recordedCalm)
      intro isBailed
      rw [shownLive.unstopped.notBailed] at isBailed
      cases isBailed

theorem Continues.nodup {after : RunnerState} (continues : Continues plan callbacks state after)
    (nodup : (state.liveItems.map LiveItem.key).Nodup) :
    (after.liveItems.map LiveItem.key).Nodup := by
  rw [(keeps_of_visitMoves continues.moves).keys]
  exact nodup

theorem Sends.nodup {key : ItemKey} {sent : Sent} {after : RunnerState}
    (sends : Sends plan callbacks key state sent after)
    (nodup : (state.liveItems.map LiveItem.key).Nodup) :
    (after.liveItems.map LiveItem.key).Nodup := by
  rw [(keeps_of_visitMoves sends.moves).keys]
  exact nodup

/-- What follows the body of an attempt. -/
theorem endAttempt_spec (unstopped : Unstopped state)
    (nodup : (state.liveItems.map LiveItem.key).Nodup) (visiting : Visiting) (number : ℕ)
    (sent : Sent)
    (calm : Calm callbacks state.events ∨ (∃ message, sent.ending = .failed message) ∧
      cancelsAt callbacks visiting.key state.clock = true) :
    AttemptSpec plan callbacks visiting.key number state
      (endAttempt plan callbacks visiting number sent state).1
      (endAttempt plan callbacks visiting number sent state).2.1
      (endAttempt plan callbacks visiting number sent state).2.2 := by
  unfold endAttempt
  cases ending : sent.ending with
  | answered tests =>
      have isCalm : Calm callbacks state.events := by simpa [ending] using calm
      exact recordResult_spec unstopped isCalm nodup visiting number sent tests none
  | skippedByScript tests =>
      have isCalm : Calm callbacks state.events := by simpa [ending] using calm
      dsimp only
      generalize ItemPatch.mk _ _ _ _ _ = patch
      exact ended_spec number patch sent.next .refl rfl rfl unstopped.noFlowError
        unstopped.notBailed nodup rfl fun _ => isCalm
  | failed message =>
      obtain ⟨control, after, askedEq, asked, _⟩ :=
        interruption_spec plan callbacks unstopped visiting.key
      -- a cancellation that is repeated ends the run here
      have isCalm : control ≠ some .canceled → Calm callbacks after.events := by
        intro notCanceled
        rcases calm with isCalm | ⟨_, cancels⟩
        · exact asked.calm isCalm
        · have repeated := interruption_canceled cancels
          rw [askedEq] at repeated
          exact absurd repeated notCanceled
      dsimp only
      rw [askedEq]
      cases control with
      | some control =>
          exact (interrupted_spec asked.unstopped (asked.nodup nodup) visiting number control
            (fun notCanceled => isCalm (by simpa using notCanceled)) _ _).continues asked
      | none =>
          exact (recordResult_spec asked.unstopped (isCalm (by simp)) (asked.nodup nodup) visiting
            number sent [] (some message)).continues asked

theorem waitFor_spec (plan : RunnerPlan) (callbacks : RunnerCallbacks)
    (unstopped : Unstopped state) :
    ∃ ended after, waitFor plan callbacks state = (ended, after) ∧
      Continues plan callbacks state after := by
  unfold waitFor
  split
  · exact ⟨_, _, rfl, Continues.tick plan callbacks unstopped⟩
  · exact ⟨_, _, rfl, Continues.refl unstopped⟩

theorem runAttempt_spec (unstopped : Unstopped state) (calm : Calm callbacks state.events)
    (nodup : (state.liveItems.map LiveItem.key).Nodup) {visiting : Visiting}
    (planned : IsPlanned plan visiting) (number : ℕ) (next : Text) :
    AttemptSpec plan callbacks visiting.key number state
      (runAttempt plan callbacks visiting number next state).1
      (runAttempt plan callbacks visiting number next state).2.1
      (runAttempt plan callbacks visiting number next state).2.2 := by
  unfold runAttempt
  obtain ⟨control, asked, askedEq, continues, _⟩ :=
    interruption_spec plan callbacks unstopped visiting.key
  rw [askedEq]
  cases control with
  | some control =>
      exact (interrupted_spec continues.unstopped (continues.nodup nodup) visiting number control
        (fun _ => continues.calm calm) {} next).continues continues
  | none =>
      dsimp only
      generalize ItemPatch.mk _ _ _ _ _ = patch
      have running := continues.trans (Continues.updateLiveItem plan callbacks
        continues.unstopped visiting.key (some .running) patch)
      obtain ⟨ended, waited, waitedEq, waiting⟩ :=
        waitFor_spec plan callbacks running.unstopped
      have started := running.trans waiting
      rw [waitedEq]
      cases ended with
      | false =>
          obtain ⟨control, later, laterEq, asking, _⟩ :=
            interruption_spec plan callbacks started.unstopped visiting.key
          have stopped := started.trans asking
          dsimp only
          rw [laterEq]
          exact (interrupted_spec stopped.unstopped (stopped.nodup nodup) visiting number _
            (fun _ => stopped.calm calm) {} next).continues stopped
      | true =>
          have sending := started.thenSends
            (sends_runBody started.unstopped (started.calm calm) planned number next)
          have sendingNodup := sending.nodup nodup
          exact (endAttempt_spec sending.unstopped sendingNodup visiting number _
            sending.calm).prepend sending.moves sending.results sending.visits

/-! ## The attempts of a visit -/

/-- Attempts are numbered one after the other, and only the last one may pass. -/
structure AttemptsInOrder (key : ItemKey) (first : ℕ) (attempts : List Attempt) : Prop where
  numbers : attempts.map Attempt.number = List.range' first attempts.length
  failed : ∀ made ∈ attempts.dropLast, made.passed = false
  results : ∀ made ∈ attempts, ∀ result, made.result = some result →
    result.key = key ∧ result.attempt = made.number ∧ result.passed = made.passed

theorem AttemptsInOrder.cons {key : ItemKey} {number : ℕ} {made : Attempt}
    {attempts : List Attempt} (numbered : made.number = number)
    (notPassed : made.passed = false)
    (isResult : ∀ result, made.result = some result →
      result.key = key ∧ result.attempt = number ∧ result.passed = made.passed)
    (others : AttemptsInOrder key (number + 1) attempts) :
    AttemptsInOrder key number (made :: attempts) where
  numbers := by
    rw [List.map_cons, others.numbers, numbered, List.length_cons, List.range'_succ]
  failed other otherMem := by
    cases attempts with
    | nil => exact absurd otherMem List.not_mem_nil
    | cons second attempts =>
        rw [List.dropLast_cons_cons, List.mem_cons] at otherMem
        rcases otherMem with rfl | later
        · exact notPassed
        · exact others.failed other later
  results other otherMem := by
    rcases List.mem_cons.mp otherMem with rfl | later
    · rw [numbered]
      exact isResult
    · exact others.results other later

theorem AttemptsInOrder.single {key : ItemKey} {number : ℕ} {made : Attempt}
    (numbered : made.number = number)
    (isResult : ∀ result, made.result = some result →
      result.key = key ∧ result.attempt = number ∧ result.passed = made.passed) :
    AttemptsInOrder key number [made] where
  numbers := by simp [numbered]
  failed := by simp
  results other otherMem := by
    rw [List.mem_singleton] at otherMem
    rw [otherMem, numbered]
    exact isResult

/-- The results that attempts leave. -/
def resultsOf (attempts : List Attempt) : List ItemResult :=
  attempts.filterMap Attempt.result

theorem resultsOf_cons (made : Attempt) (attempts : List Attempt) :
    resultsOf (made :: attempts) = made.result.toList ++ resultsOf attempts := by
  unfold resultsOf
  cases resultEq : made.result with
  | none => simp [resultEq]
  | some result => simp [resultEq]

structure AttemptsSpec (plan : RunnerPlan) (callbacks : RunnerCallbacks) (key : ItemKey)
    (remaining first : ℕ) (state : RunnerState) (finished : Bool) (attempts : List Attempt)
    (after : RunnerState) : Prop where
  moves : VisitMoves plan callbacks state after
  results : after.results = state.results ++ resultsOf attempts
  visits : after.visits = state.visits
  flowError : after.flowError = none
  few : attempts.length ≤ remaining
  inOrder : AttemptsInOrder key first attempts
  ended : finished = true → Finished key after.liveItems
  bailed : after.bailed = true → AllFinished after.liveItems
  calm : after.cancelled = false → Calm callbacks after.events
  unfinished : finished = false → first + remaining ≤ plan.retries + 1

theorem runAttempts_spec (unstopped : Unstopped state) (calm : Calm callbacks state.events)
    (nodup : (state.liveItems.map LiveItem.key).Nodup) {visiting : Visiting}
    (planned : IsPlanned plan visiting) (remaining : ℕ) {first : ℕ}
    (inRange : first ≤ plan.retries + 1) (next : Text) :
    AttemptsSpec plan callbacks visiting.key remaining first state
      (runAttempts plan callbacks visiting remaining first next state).1.1
      (runAttempts plan callbacks visiting remaining first next state).1.2.2
      (runAttempts plan callbacks visiting remaining first next state).2 := by
  induction remaining generalizing first next state with
  | zero =>
      refine ⟨.refl, by simp [runAttempts, resultsOf], rfl, unstopped.noFlowError, le_refl 0,
        ⟨rfl, by simp [runAttempts], by simp [runAttempts]⟩, by simp [runAttempts], ?_,
        fun _ => calm, fun _ => inRange⟩
      intro isBailed
      change state.bailed = true at isBailed
      rw [unstopped.notBailed] at isBailed
      cases isBailed
  | succ remaining ih =>
      have spec := runAttempt_spec unstopped calm nodup planned first next
      unfold runAttempts
      rcases attemptEq : runAttempt plan callbacks visiting first next state with
        ⟨ending, made, after⟩
      rw [attemptEq] at spec
      cases ending with
      | again again =>
        obtain ⟨afterUnstopped, notPassed, notLast⟩ := spec.again again rfl
        have afterNodup : (after.liveItems.map LiveItem.key).Nodup := by
          rw [(keeps_of_visitMoves spec.moves).keys]
          exact nodup
        have others := ih afterUnstopped (spec.calm afterUnstopped.notCancelled) afterNodup
          (show first + 1 ≤ plan.retries + 1 by omega) again
        dsimp only
        rcases laterEq : runAttempts plan callbacks visiting remaining (first + 1) again after with
          ⟨⟨finished, last, attempts⟩, later⟩
        rw [laterEq] at others
        refine ⟨spec.moves.trans others.moves, ?_, others.visits.trans spec.visits,
          others.flowError, ?_, others.inOrder.cons spec.numbered notPassed spec.result,
          others.ended, others.bailed, others.calm, ?_⟩
        · rw [others.results, spec.results, resultsOf_cons, List.append_assoc]
        · exact Nat.succ_le_succ others.few
        · intro unfinished
          have bound := others.unfinished unfinished
          omega
      | finished finished =>
        have ended := spec.finished finished rfl
        refine ⟨spec.moves, ?_, spec.visits, ?_, ?_, .single spec.numbered spec.result,
          fun _ => ended.2, spec.bailed, spec.calm, ?_⟩
        · rw [spec.results, resultsOf_cons]
          simp [resultsOf]
        · exact ended.1
        · simp
        · intro unfinished
          cases unfinished

/-! ## A visit -/

structure VisitSpec (plan : RunnerPlan) (callbacks : RunnerCallbacks) (key : ItemKey)
    (state : RunnerState) (stopped : Bool) (after : RunnerState) : Prop where
  moves : VisitMoves plan callbacks state after
  visit : ∃ attempts, after.visits = state.visits ++ [⟨key, attempts⟩] ∧
    after.results = state.results ++ resultsOf attempts ∧
    attempts.length ≤ plan.retries + 1 ∧ AttemptsInOrder key 1 attempts
  goesOn : stopped = false → Unstopped after ∧ Finished key after.liveItems
  stops : stopped = true → AllFinished after.liveItems
  calm : stopped = false → Calm callbacks after.events

theorem visitItem_spec (unstopped : Unstopped state) (calm : Calm callbacks state.events)
    (nodup : (state.liveItems.map LiveItem.key).Nodup) {visiting : Visiting}
    (planned : IsPlanned plan visiting) :
    VisitSpec plan callbacks visiting.key state
      (visitItem plan callbacks visiting state).1.1
      (visitItem plan callbacks visiting state).2 := by
  have spec := runAttempts_spec unstopped calm nodup planned
    (plan.retries + 1) (show 1 ≤ plan.retries + 1 by omega) []
  unfold visitItem
  rcases attemptsEq : runAttempts plan callbacks visiting (plan.retries + 1) 1 [] state with
    ⟨⟨finished, next, attempts⟩, tried⟩
  rw [attemptsEq] at spec
  dsimp only at spec ⊢
  have visits : tried.visits ++ [⟨visiting.key, attempts⟩] =
      state.visits ++ [⟨visiting.key, attempts⟩] := by rw [spec.visits]
  have moves := spec.moves.tail (.visited tried ⟨visiting.key, attempts⟩)
  split
  case isTrue bailed =>
    refine ⟨moves, ⟨attempts, visits, spec.results, spec.few, spec.inOrder⟩, ?_, ?_, ?_⟩
    · intro goesOn
      cases goesOn
    · exact fun _ => spec.bailed bailed
    · intro goesOn
      cases goesOn
  case isFalse notBailed =>
    split
    case isTrue cancelled =>
      refine ⟨moves.tail (.finish _ _ _), ⟨attempts, ?_, ?_, spec.few, spec.inOrder⟩, ?_, ?_, ?_⟩
      · rw [finishUnfinished_visits]
        exact visits
      · rw [finishUnfinished_results]
        exact spec.results
      · intro goesOn
        cases goesOn
      · exact fun _ => RunnerState.finished_finishUnfinished _ rfl _
      · intro goesOn
        cases goesOn
    case isFalse notCancelled =>
      have isFinished : finished = true := by
        by_contra unfinished
        rw [Bool.not_eq_true] at unfinished
        have bound := spec.unfinished unfinished
        omega
      rw [if_pos isFinished]
      refine ⟨moves, ⟨attempts, visits, spec.results, spec.few, spec.inOrder⟩, ?_, ?_,
        fun _ => spec.calm (Bool.eq_false_iff.mpr notCancelled)⟩
      · intro _
        rw [Bool.not_eq_true] at notBailed notCancelled
        exact ⟨⟨notCancelled, notBailed, spec.flowError⟩, spec.ended isFinished⟩
      · intro stops
        cases stops

end Attempts

end Brunomnia.Runner
