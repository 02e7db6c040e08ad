import Brunomnia.Library.Runs
import Brunomnia.McpStdio.Pairing

/-!
# Failures of the transport

A dispatcher that fails records the error, drains the waiters and stops, unless the session is
closed before it looks. Whatever the other threads do meanwhile, it gets there within three steps
of its own; from then on no call that looked for the error too early has a waiter, and every call
returns within a few steps of its own.
-/

namespace Brunomnia.McpStdio

open Serde Library

/-! ## What is expected of a failure -/

/-- The dispatcher failed and delivers nothing any more. -/
def Dispatcher.isFailing : Dispatcher → Bool
  | .failing _ | .recording _ | .draining _ | .stopped => true
  | _ => false

/-- How many steps the dispatcher takes from a failure until it stops. -/
def Dispatcher.rank : Dispatcher → ℕ
  | .failing _ => 3
  | .recording _ => 2
  | .draining _ => 1
  | _ => 0

def Session.Action.isDispatch : Session.Action → Bool
  | .dispatch _ => true
  | _ => false

def Session.Action.isStepOf (number : ℕ) : Session.Action → Bool
  | .advanceCall other _ _ => other = number
  | _ => false

/-- A failing dispatcher records the error and drains the waiters, a call that has a waiter while
it fails never returns a result, and when the waiters were drained every call returns within a
few steps of its own. -/
structure FailureEndsCalls (session : Session) : Prop where
  noResult : session.dispatcher.isFailing = true → ∀ number, session.IsWaiter number →
    ∀ (more : List Session.Action) (call : Call) (result : Value),
      (more.foldl Session.step session).calls[number]? = some call →
      call.phase ≠ .returned (.ok result)
  drains : session.dispatcher.isFailing = true → ∀ more : List Session.Action,
    session.dispatcher.rank ≤ more.countP Session.Action.isDispatch →
    (more.foldl Session.step session).TransportFailed ∨
      session.transportError = none ∧ (more.foldl Session.step session).closing = true
  drained : ∀ error outcome, session.dispatcher = .draining error →
    ∀ number, ¬ (session.step (.dispatch outcome)).IsWaiter number
  returns : session.TransportFailed → ∀ (number : ℕ) (call : Call),
    session.calls[number]? = some call → ∀ more : List Session.Action,
      call.phase.rank ≤ more.countP (Session.Action.isStepOf number) →
      ∃ ended, (more.foldl Session.step session).calls[number]? = some ended ∧
        ended.hasReturned = true

variable {session : Session}

/-! ## The dispatcher comes to the drain -/

/-- A dispatcher drains after the error was recorded, and stops then or because of a close. -/
structure FailureRecorded (session : Session) : Prop where
  draining : ∀ error, session.dispatcher = .draining error →
    session.transportError.isSome = true
  stopped : session.dispatcher = .stopped →
    session.transportError.isSome = true ∨ session.closing = true

/-- A step of another thread leaves a failing dispatcher and its error alone. -/
structure Untouched (session after : Session) : Prop where
  dispatcher : after.dispatcher = session.dispatcher
  transportError : after.transportError = session.transportError
  closing : session.closing = true → after.closing = true

theorem Untouched.refl (session : Session) : Untouched session session :=
  ⟨rfl, rfl, id⟩

theorem waitForClientResponse_untouched (number : ℕ) (call : Call) (wake : Session.Wake)
    (outcome : WriteOutcome) :
    Untouched session (session.waitForClientResponse number call wake outcome) := by
  simp only [Session.waitForClientResponse]
  cases call.phase with
  | waiting =>
      cases wake with
      | poll stderr =>
          simp only [Session.poll]
          cases call.channel with
          | none =>
              dsimp only
              split
              case isTrue => exact .refl session
              case isFalse => exact ⟨rfl, rfl, id⟩
          | some message => cases message <;> exact ⟨rfl, rfl, id⟩
      | _ => exact ⟨rfl, rfl, id⟩
  | _ => exact ⟨rfl, rfl, id⟩

/-- A dispatcher that does not receive moves by its own steps only. -/
theorem step_untouched {action : Session.Action} (notOwn : action.isDispatch = false)
    (noMessage : ∀ incoming, action = .receive incoming → session.dispatcher ≠ .receiving) :
    Untouched session (session.step action) := by
  cases action with
  | receive incoming =>
      simp only [Session.step, Session.receive]
      cases next : session.dispatcher with
      | receiving => exact absurd next (noMessage incoming rfl)
      | _ => exact .refl session
  | dispatch outcome => simp [Session.Action.isDispatch] at notOwn
  | begin method params roots cancelled stderr =>
      simp only [Session.step, Session.begin]
      split_ifs
      case neg => cases stderr <;> exact ⟨rfl, rfl, id⟩
      all_goals exact .refl session
  | advanceCall number wake outcome =>
      simp only [Session.step, Session.advanceCall]
      split
      case h_1 call _ => exact waitForClientResponse_untouched number call wake outcome
      case h_2 => exact .refl session
  | advanceRespond number outcome =>
      simp only [Session.step, Session.advanceRespond]
      split
      case h_1 => exact .refl session
      case h_2 respond _ =>
          cases respond.phase with
          | holding key request =>
              simp only [Session.answerRequest]
              split <;> exact ⟨rfl, rfl, id⟩
          | _ => exact ⟨rfl, rfl, id⟩
  | close =>
      simp only [Session.step]
      split
      · exact ⟨rfl, rfl, fun _ => rfl⟩
      · exact .refl session
  | _ => exact ⟨rfl, rfl, id⟩

/-- What a step of its own makes of a failing dispatcher. -/
inductive FailureMoves (session : Session) : Session → Prop where
  | looked (error : String) (failing : session.dispatcher = .failing error) :
      FailureMoves session
        { session with dispatcher := if session.closing then .stopped else .recording error }
  | recorded (error : String) (recording : session.dispatcher = .recording error) :
      FailureMoves session
        { session with transportError := some error, dispatcher := .draining error }
  | drained (error : String) (draining : session.dispatcher = .draining error) :
      FailureMoves session (session.drainWaiters error)
  | stopped (stopped : session.dispatcher = .stopped) : FailureMoves session session

theorem dispatch_failureMoves (failing : session.dispatcher.isFailing = true)
    (outcome : WriteOutcome) : FailureMoves session (session.dispatch outcome) := by
  simp only [Session.dispatch]
  cases next : session.dispatcher with
  | failing error => exact .looked error next
  | recording error => exact .recorded error next
  | draining error => exact .drained error next
  | stopped => exact .stopped next
  | _ => simp [next, Dispatcher.isFailing] at failing

/-- What a failing session keeps: the error once it is recorded, and the closing mark. -/
structure StillFailing (session after : Session) : Prop where
  failing : after.dispatcher.isFailing = true
  recorded : FailureRecorded session → FailureRecorded after
  transportError : session.transportError.isSome = true → after.transportError.isSome = true
  closing : session.closing = true → after.closing = true

theorem Untouched.stillFailing {after : Session} (untouched : Untouched session after)
    (failing : session.dispatcher.isFailing = true) : StillFailing session after where
  failing := untouched.dispatcher ▸ failing
  recorded before :=
    ⟨fun error next => untouched.transportError ▸ before.draining error
        (untouched.dispatcher ▸ next),
      fun next => (before.stopped (untouched.dispatcher ▸ next)).imp
        (untouched.transportError ▸ ·) untouched.closing⟩
  transportError isSome := untouched.transportError ▸ isSome
  closing := untouched.closing

theorem FailureMoves.stillFailing {after : Session} (moves : FailureMoves session after) :
    StillFailing session after := by
  cases moves with
  | looked error failing =>
      cases closing : session.closing with
      | false => exact ⟨rfl, fun _ => ⟨by simp, by simp⟩, id, fun closed => closing ▸ closed⟩
      | true => exact ⟨rfl, fun _ => ⟨by simp, fun _ => .inr rfl⟩, id, fun _ => rfl⟩
  | recorded => exact ⟨rfl, fun _ => ⟨fun _ _ => rfl, by simp⟩, fun _ => rfl, id⟩
  | drained error draining =>
      exact ⟨rfl, fun before => ⟨by simp [Session.drainWaiters],
        fun _ => .inl (before.draining error draining)⟩, id, id⟩
  | stopped stopped => exact ⟨by rw [stopped]; rfl, id, id, id⟩

theorem FailureMoves.rank {after : Session} (moves : FailureMoves session after) :
    after.dispatcher.rank ≤ session.dispatcher.rank - 1 := by
  cases moves with
  | looked error failing =>
      rw [failing]
      cases session.closing <;> simp [Dispatcher.rank]
  | recorded error recording => simp [recording, Dispatcher.rank]
  | drained error draining => simp [draining, Dispatcher.rank, Session.drainWaiters]
  | stopped stopped => simp [stopped, Dispatcher.rank]

theorem busy_of_failing (failing : session.dispatcher.isFailing = true) :
    session.dispatcher ≠ .receiving := by
  intro receiving
  simp [receiving, Dispatcher.isFailing] at failing

theorem stillFailing_step (failing : session.dispatcher.isFailing = true)
    (action : Session.Action) : StillFailing session (session.step action) ∧
      (session.step action).dispatcher.rank ≤
        session.dispatcher.rank - if action.isDispatch then 1 else 0 := by
  cases own : action.isDispatch with
  | false =>
      have untouched := step_untouched own fun _ _ => busy_of_failing failing
      exact ⟨untouched.stillFailing failing, by rw [untouched.dispatcher]; exact le_rfl⟩
  | true =>
      cases action with
      | dispatch outcome =>
          have moves : FailureMoves session (session.step (.dispatch outcome)) :=
            dispatch_failureMoves failing outcome
          exact ⟨moves.stillFailing, moves.rank⟩
      | _ => simp [Session.Action.isDispatch] at own

/-- A dispatcher that works on may come to a failure, and to nothing behind it. -/
def Dispatcher.isEarly : Dispatcher → Bool
  | .recording _ | .draining _ | .stopped => false
  | _ => true

theorem isEarly_of_notFailing {dispatcher : Dispatcher} (working : dispatcher.isFailing = false) :
    dispatcher.isEarly = true := by
  cases dispatcher <;> simp_all [Dispatcher.isFailing, Dispatcher.isEarly]

theorem dispatch_isEarly (working : session.dispatcher.isFailing = false)
    (outcome : WriteOutcome) : (session.dispatch outcome).dispatcher.isEarly = true := by
  simp only [Session.dispatch]
  cases next : session.dispatcher with
  | receiving => rw [next]; rfl
  | dispatching arrival value =>
      simp only [Session.dispatchStdioMessage, Session.accept, Session.takeWaiter]
      split
      case h_1 => split <;> [rfl; (split <;> [rfl; (split <;> rfl)])]
      case h_2 => split <;> [rfl; (split <;> rfl)]
      case h_3 => rfl
  | replying reply => cases outcome <;> rfl
  | delivering number value => rfl
  | _ => simp [next, Dispatcher.isFailing] at working

theorem step_isEarly (working : session.dispatcher.isFailing = false) (action : Session.Action) :
    (session.step action).dispatcher.isEarly = true := by
  cases action with
  | dispatch outcome => exact dispatch_isEarly working outcome
  | receive incoming =>
      simp only [Session.step, Session.receive]
      cases next : session.dispatcher with
      | receiving => cases incoming <;> rfl
      | _ => rw [next]; exact isEarly_of_notFailing (next ▸ working)
  | _ =>
      rw [(step_untouched rfl (by simp)).dispatcher]
      exact isEarly_of_notFailing working

/-- What was recorded stays so in every session, failing or not. -/
theorem FailureRecorded.step (before : FailureRecorded session) (action : Session.Action) :
    FailureRecorded (session.step action) := by
  cases failing : session.dispatcher.isFailing with
  | true => exact (stillFailing_step failing action).1.recorded before
  | false =>
      have early := step_isEarly failing action
      constructor
      · intro error draining
        simp [draining, Dispatcher.isEarly] at early
      · intro stopped
        simp [stopped, Dispatcher.isEarly] at early

theorem drains_run (recorded : FailureRecorded session)
    (failing : session.dispatcher.isFailing = true) (more : List Session.Action)
    (enough : session.dispatcher.rank ≤ more.countP Session.Action.isDispatch) :
    (more.foldl Session.step session).TransportFailed ∨
      session.transportError = none ∧ (more.foldl Session.step session).closing = true := by
  have run := rank_foldl_le Session.step
    (fun state => state.dispatcher.isFailing = true ∧ FailureRecorded state ∧
      (session.transportError.isSome = true → state.transportError.isSome = true))
    (fun state => state.dispatcher.rank) Session.Action.isDispatch
    (fun state action kept =>
      have step := stillFailing_step kept.1 action
      ⟨⟨step.1.failing, step.1.recorded kept.2.1,
        fun isSome => step.1.transportError (kept.2.2 isSome)⟩, step.2⟩)
    more ⟨failing, recorded, id⟩
  generalize more.foldl Session.step session = after at run ⊢
  rcases run with ⟨⟨stillFails, known, kept⟩, rank⟩
  rw [Nat.sub_eq_zero_of_le enough, Nat.le_zero] at rank
  have stopped : after.dispatcher = .stopped := by
    cases next : after.dispatcher with
    | stopped => rfl
    | _ => simp [next, Dispatcher.rank, Dispatcher.isFailing] at rank stillFails
  cases error : session.transportError with
  | some failure => exact .inl ⟨kept (by rw [error]; rfl), stopped⟩
  | none => exact (known.stopped stopped).imp (⟨·, stopped⟩) (⟨rfl, ·⟩)

/-! ## No result after a failure -/

/-- The call was sent no response and returned no result. -/
def Silent (session : Session) (number : ℕ) : Prop :=
  ∃ call, session.calls[number]? = some call ∧
    (∀ response, call.channel ≠ some (.ok response)) ∧
    ∀ result, call.phase ≠ .returned (.ok result)

/-- The dispatcher fails and the call was sent no response. -/
structure Doomed (session : Session) (number : ℕ) : Prop where
  failing : session.dispatcher.isFailing = true
  silent : Silent session number

theorem doomed_of_isWaiter (known : CallsKnown session)
    (failing : session.dispatcher.isFailing = true) {number : ℕ}
    (waiter : session.IsWaiter number) : Doomed session number := by
  rcases waiter with ⟨key, waiter⟩
  rcases known.waiting key number waiter with ⟨call, callAt, _, registered, channel⟩
  refine ⟨failing, call, callAt, by simp [channel], fun result returned => ?_⟩
  simp [returned, CallPhase.isRegistered] at registered

theorem silent_setCall {number other : ℕ} {call : Call} {phase : CallPhase} {after : Session}
    (silent : Silent session other) (found : session.calls[number]? = some call)
    (result : ∀ result, phase = .returned (.ok result) →
      ∃ response, call.channel = some (.ok response))
    (calls : after.calls = (session.setCall number phase).calls) : Silent after other := by
  rcases silent with ⟨silentCall, silentAt, noResponse, noResult⟩
  have changedAt := exists_setCall phase found silentAt
  refine ⟨_, calls ▸ changedAt, ?_⟩
  split
  case isTrue same =>
      subst same
      rw [found, Option.some.injEq] at silentAt
      subst silentAt
      refine ⟨noResponse, fun value returned => ?_⟩
      rcases result value returned with ⟨response, delivered⟩
      exact noResponse response delivered
  case isFalse => exact ⟨noResponse, noResult⟩

theorem Doomed.step {number : ℕ} (doomed : Doomed session number) (action : Session.Action) :
    Doomed (session.step action) number := by
  refine ⟨(stillFailing_step doomed.failing action).1.failing, ?_⟩
  have failing := doomed.failing
  have silent := doomed.silent
  have moves := @step_callMoves session action
  generalize session.step action = after at moves ⊢
  cases moves with
  | quiet same =>
      rw [Silent, same.calls]
      exact silent
  | received value calls waiters error nextId received before dispatcher =>
      rw [Silent, calls]
      exact silent
  | took dispatching idEq noMethod keyEq waiter => exact silent
  | delivered delivering => simp [delivering, Dispatcher.isFailing] at failing
  | recorded error recording => exact silent
  | drained error draining =>
      rcases silent with ⟨call, callAt, noResponse, noResult⟩
      have changedAt := @calls_drainWaiters session error number
      rw [callAt, Option.map_some] at changedAt
      refine ⟨_, changedAt, ?_⟩
      split
      case isTrue => exact ⟨by simp, noResult⟩
      case isFalse => exact ⟨noResponse, noResult⟩
  | begun request isFirst =>
      rcases silent with ⟨call, callAt, holds⟩
      refine ⟨call, ?_, holds⟩
      rw [List.getElem?_append_left (List.getElem?_eq_some_iff.mp callAt).1]
      exact callAt
  | advanced found goesOn calls waiters only =>
      refine silent_setCall silent found ?_ calls
      intro result returned
      rcases goesOn.result result returned with ⟨response, delivered, _⟩
      exact ⟨response, delivered⟩
  | registered found registering => exact silent_setCall silent found (by simp) rfl
  | left found leaving isLast =>
      refine silent_setCall silent found ?_ rfl
      rcases isLast with rfl | rfl <;> simp

/-! ## Calls return after a failure -/

theorem failed_step (known : CallsKnown session) (failed : session.TransportFailed)
    (action : Session.Action) : (session.step action).TransportFailed := by
  rcases failed with ⟨recorded, stopped⟩
  have moves := @step_callMoves session action
  generalize session.step action = after at moves ⊢
  cases moves with
  | quiet same =>
      exact ⟨same.transportError ▸ recorded, (same.halted (known.failed recorded)).trans stopped⟩
  | received value calls waiters error nextId received before dispatcher =>
      exact absurd (stopped.symm.trans before) (by simp)
  | took dispatching idEq noMethod keyEq waiter =>
      exact absurd (stopped.symm.trans dispatching) (by simp)
  | delivered delivering => exact absurd (stopped.symm.trans delivering) (by simp)
  | recorded error recording => exact absurd (stopped.symm.trans recording) (by simp)
  | drained error draining => exact absurd (stopped.symm.trans draining) (by simp)
  | advanced found goesOn calls waiters only =>
      exact ⟨only.transportError ▸ recorded, only.dispatcher ▸ stopped⟩
  | _ => exact ⟨recorded, stopped⟩

theorem rank_setCall {number other : ℕ} {call otherCall : Call} {phase : CallPhase}
    (found : session.calls[number]? = some call) (fewer : phase.rank < call.phase.rank)
    (otherAt : session.calls[other]? = some otherCall) :
    ∃ changed, (session.setCall number phase).calls[other]? = some changed ∧
      changed.phase.rank ≤ otherCall.phase.rank := by
  refine ⟨_, exists_setCall phase found otherAt, ?_⟩
  split
  case isTrue same =>
      subst same
      rw [found, Option.some.injEq] at otherAt
      subst otherAt
      exact fewer.le
  case isFalse => exact le_rfl

theorem rank_step {number : ℕ} {call : Call} (callAt : session.calls[number]? = some call)
    (action : Session.Action) :
    ∃ changed, (session.step action).calls[number]? = some changed ∧
      changed.phase.rank ≤ call.phase.rank := by
  have moves := @step_callMoves session action
  generalize session.step action = after at moves ⊢
  cases moves with
  | quiet same => exact ⟨call, same.calls ▸ callAt, le_rfl⟩
  | received value calls => exact ⟨call, calls ▸ callAt, le_rfl⟩
  | took => exact ⟨call, callAt, le_rfl⟩
  | @delivered sent value delivering =>
      simp only [calls_sendTo, callAt, Option.map_some]
      split <;> exact ⟨_, rfl, le_rfl⟩
  | recorded error recording => exact ⟨call, callAt, le_rfl⟩
  | drained error draining =>
      simp only [calls_drainWaiters, callAt, Option.map_some]
      refine ⟨_, rfl, ?_⟩
      split <;> exact le_rfl
  | begun request isFirst =>
      refine ⟨call, ?_, le_rfl⟩
      rw [List.getElem?_append_left (List.getElem?_eq_some_iff.mp callAt).1]
      exact callAt
  | advanced found goesOn calls waiters only =>
      rw [calls]
      exact rank_setCall found goesOn.rank callAt
  | registered found registering =>
      exact rank_setCall found (by simp [registering, CallPhase.rank]) callAt
  | left found leaving isLast =>
      refine rank_setCall found ?_ callAt
      rcases isLast with rfl | rfl <;> simp [leaving, CallPhase.rank]

/-- After a failure no step of a call is idle. -/
theorem rank_ownStep (known : CallsKnown session) (failed : session.TransportFailed) {number : ℕ}
    {call : Call} (callAt : session.calls[number]? = some call) (wake : Session.Wake)
    (outcome : WriteOutcome) :
    ∃ changed, (session.advanceCall number wake outcome).calls[number]? = some changed ∧
      changed.phase.rank ≤ call.phase.rank - 1 := by
  have set {after : Session} (phase : CallPhase)
      (calls : after.calls = (session.setCall number phase).calls)
      (fewer : phase.rank ≤ call.phase.rank - 1) :
      ∃ changed, after.calls[number]? = some changed ∧
        changed.phase.rank ≤ call.phase.rank - 1 := by
    refine ⟨{ call with phase }, ?_, fewer⟩
    rw [calls, calls_setCall, if_pos rfl, callAt, Option.map_some]
  rcases Option.isSome_iff_exists.mp failed.1 with ⟨error, failure⟩
  have step : session.advanceCall number wake outcome =
      session.waitForClientResponse number call wake outcome := by
    simp only [Session.advanceCall, callAt]
  rw [step]
  rcases call with ⟨id, request, phase, channel⟩
  cases phase with
  | checking =>
      apply set (.returned (.error error))
      · simp only [Session.waitForClientResponse, failure]
      · exact Nat.zero_le _
  | registering => exact set .rechecking rfl (by simp [CallPhase.rank])
  | rechecking =>
      apply set (.leaving error false)
      · simp only [Session.waitForClientResponse, failure]
      · simp [CallPhase.rank]
  | sending =>
      cases outcome with
      | written => exact set .waiting rfl (by simp [CallPhase.rank])
      | failed failure through kept =>
          exact set (.leaving failure false) rfl (by simp [CallPhase.rank])
  | waiting =>
      cases wake with
      | cancelled => exact set (.leaving _ true) rfl (by simp [CallPhase.rank])
      | deadline => exact set (.leaving _ false) rfl (by simp [CallPhase.rank])
      | poll stderr =>
          have dead : session.senderAlive number = false := by
            have noWaiter := known.paired.noWaiterAfterFailure failed number _ callAt rfl
            rw [← mem_waiters_iff] at noWaiter
            simp [Session.senderAlive, noWaiter, failed.2]
          rcases channel with _ | (failure | value)
          · apply set (.returned (.error "The MCP STDIO response dispatcher stopped unexpectedly."))
            · simp [Session.waitForClientResponse, Session.poll, dead]
            · exact Nat.zero_le _
          · exact set (.returned (.error failure)) rfl (Nat.zero_le _)
          · exact set (.returned _) rfl (Nat.zero_le _)
  | leaving error notify =>
      cases notify with
      | false => exact set (.returned (.error error)) rfl (by simp [CallPhase.rank])
      | true => exact set (.notifying error) rfl (by simp [CallPhase.rank])
  | notifying error => exact set (.returned (.error error)) rfl (Nat.zero_le _)
  | returned result => exact ⟨_, callAt, by simp [CallPhase.rank]⟩

/-- The steps that are left for a call. -/
def Session.callRank (session : Session) (number : ℕ) : ℕ :=
  session.calls[number]?.elim 0 fun call => call.phase.rank

theorem callRank_step (known : CallsKnown session) (failed : session.TransportFailed) {number : ℕ}
    (inRange : number < session.calls.length) (action : Session.Action) :
    (CallsKnown (session.step action) ∧ (session.step action).TransportFailed ∧
        number < (session.step action).calls.length) ∧
      (session.step action).callRank number ≤
        session.callRank number - if action.isStepOf number then 1 else 0 := by
  have callAt := List.getElem?_eq_getElem inRange
  have next : ∃ changed, (session.step action).calls[number]? = some changed ∧
      changed.phase.rank ≤
        session.calls[number].phase.rank - (if action.isStepOf number then 1 else 0) := by
    cases own : action.isStepOf number with
    | false => exact rank_step callAt action
    | true =>
        cases action with
        | advanceCall other wake outcome =>
            simp only [Session.Action.isStepOf, decide_eq_true_eq] at own
            subst own
            exact rank_ownStep known failed callAt wake outcome
        | _ => simp [Session.Action.isStepOf] at own
  rcases next with ⟨changed, changedAt, fewer⟩
  refine ⟨⟨known.step action, failed_step known failed action,
    (List.getElem?_eq_some_iff.mp changedAt).1⟩, ?_⟩
  simpa [Session.callRank, changedAt, callAt] using fewer

theorem CallsKnown.failureEndsCalls (known : CallsKnown session)
    (recorded : FailureRecorded session) : FailureEndsCalls session := by
  refine ⟨?_, drains_run recorded, ?_, ?_⟩
  · intro failing number waiter more call result callAt
    have start := doomed_of_isWaiter known failing waiter
    have doomed : Doomed (more.foldl Session.step session) number := by
      clear callAt
      induction more using List.reverseRecOn with
      | nil => exact start
      | append_singleton more action ih =>
          rw [List.foldl_append]
          exact ih.step action
    rcases doomed.silent with ⟨other, otherAt, _, noResult⟩
    rw [callAt, Option.some.injEq] at otherAt
    exact otherAt ▸ noResult result
  · rintro error outcome draining number ⟨key, waiter⟩
    simp [Session.step, Session.dispatch, draining, Session.drainWaiters, Store.read,
      Store.empty] at waiter
  · intro failed number call callAt more enough
    have run := rank_foldl_le Session.step
      (fun state => CallsKnown state ∧ state.TransportFailed ∧ number < state.calls.length)
      (fun state => state.callRank number) (Session.Action.isStepOf number)
      (fun state action kept => callRank_step kept.1 kept.2.1 kept.2.2 action)
      more ⟨known, failed, (List.getElem?_eq_some_iff.mp callAt).1⟩
    generalize more.foldl Session.step session = after at run ⊢
    rcases run with ⟨⟨_, _, inRange⟩, rank⟩
    have startRank : session.callRank number = call.phase.rank := by
      simp [Session.callRank, callAt]
    rw [startRank, Nat.sub_eq_zero_of_le enough, Nat.le_zero] at rank
    refine ⟨after.calls[number], List.getElem?_eq_getElem inRange, ?_⟩
    simp only [Session.callRank, List.getElem?_eq_getElem inRange, Option.elim_some] at rank
    cases phase : after.calls[number].phase with
    | returned result => simp [Call.hasReturned, phase]
    | _ => simp [phase, CallPhase.rank] at rank

/-! ## Runs -/

theorem callsKnown_opening (sessionKey : String) (roots : List String) (request : Value) :
    CallsKnown (Session.opening sessionKey roots request) := by
  have only {number : ℕ} {call : Call}
      (callAt : (Session.opening sessionKey roots request).calls[number]? = some call) :
      call = ⟨1, request, .checking, none⟩ :=
    List.mem_singleton.mp (List.mem_of_getElem? callAt)
  refine ⟨List.nodup_singleton _, ?_, ?_, ?_, ?_, ?_, ?_, ?_, ?_, ?_, ?_⟩
  · intro call callMem
    rw [List.mem_singleton.mp callMem]
    exact Nat.one_lt_two
  · intro key number waiter
    simp [Session.opening, Store.read, Store.empty] at waiter
  · simp [Session.opening]
  · simp [Session.opening]
  · intro number call callAt _
    rw [only callAt]
  · intro number call value callAt delivered
    simp [only callAt] at delivered
  · intro number call result callAt returned
    simp [only callAt] at returned
  · simp [Session.opening]
  · simp [Session.opening]
  · intro failed
    simp [Session.opening, Session.TransportFailed] at failed

/-- In every state of every run the calls are paired with their own responses, and a failure of
the transport ends every call that is still registered with an error. -/
theorem calls_paired (sessionKey : String) (roots : List String) (request : Value)
    (actions : List Session.Action) :
    EveryState Session.step (Session.opening sessionKey roots request) actions fun session =>
      CallsPaired session ∧ FailureEndsCalls session := by
  have always : EveryState Session.step (Session.opening sessionKey roots request) actions
      fun session => CallsKnown session ∧ FailureRecorded session := by
    have every : EveryStep Session.step (Session.opening sessionKey roots request) actions
        fun _ _ => True := fun _ _ => trivial
    refine EveryState.of_everyStep ⟨callsKnown_opening sessionKey roots request,
      ⟨by simp [Session.opening], by simp [Session.opening]⟩⟩ ?_ every
    exact fun session action known _ => ⟨known.1.step action, known.2.step action⟩
  exact fun n inRange => ⟨(always n inRange).1.paired,
    (always n inRange).1.failureEndsCalls (always n inRange).2⟩

end Brunomnia.McpStdio
