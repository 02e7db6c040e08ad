import Brunomnia.Library.Lists
import Brunomnia.McpStdio.Session

/-!
# Calls and their responses

A call leaves a waiter under its identity, the dispatcher hands a response to the waiter of its
identity, and a failure of the transport is recorded before the waiters are drained while a call
looks for it after it has registered. In every run a call gets the response to itself only, leaves
no waiter behind and ends with an error if it was registered when the transport failed.
-/

namespace Brunomnia.McpStdio

open Serde Library

/-! ## What is expected of a run -/

/-- A response of the server that carries the identity of a call. -/
structure Answers (session : Session) (call : Call) (response : Value) : Prop where
  received : response ∈ session.received
  noMethod : methodOf response = none
  ownId : response.get "id" = some (Value.integer call.id)

namespace Session

def IsWaiter (session : Session) (number : ℕ) : Prop :=
  ∃ key, session.responseWaiters.read key = some number

/-- The error was recorded and the waiters were drained. -/
def TransportFailed (session : Session) : Prop :=
  session.transportError.isSome = true ∧ session.dispatcher = .stopped

end Session

/-- A phase before which the waiter was entered and after which it is removed or taken. -/
def CallPhase.isRegistered : CallPhase → Bool
  | .rechecking | .sending | .waiting | .leaving _ _ => true
  | _ => false

/-- A registered phase in which the error is not looked for any more. -/
def CallPhase.isExposed : CallPhase → Bool
  | .sending | .waiting => true
  | _ => false

/-- A phase before the waiter is entered. -/
def CallPhase.isFresh : CallPhase → Bool
  | .checking | .registering => true
  | _ => false

structure CallsPaired (session : Session) : Prop where
  ownResult : ∀ (number : ℕ) (call : Call) (result : Value),
    session.calls[number]? = some call → call.phase = .returned (.ok result) →
    ∃ response, Answers session call response ∧ responseResult response = .ok result
  noCrossDelivery : ∀ (late other : ℕ) (lateCall otherCall : Call) (response : Value),
    session.calls[late]? = some lateCall → session.calls[other]? = some otherCall →
    late ≠ other → otherCall.channel = some (.ok response) →
    response.get "id" ≠ some (Value.integer lateCall.id)
  unregistered : ∀ (number : ℕ) (call : Call), session.calls[number]? = some call →
    call.hasReturned = true →
    ¬ session.IsWaiter number ∧ session.responseWaiters.read call.key = none
  noWaiterAfterFailure : session.TransportFailed → ∀ (number : ℕ) (call : Call),
    session.calls[number]? = some call → call.phase.isExposed = true → ¬ session.IsWaiter number

/-- How many steps a call takes at most until it has returned. -/
def CallPhase.rank : CallPhase → ℕ
  | .checking => 7
  | .registering => 6
  | .rechecking => 5
  | .sending => 4
  | .waiting => 3
  | .leaving _ _ => 2
  | .notifying _ => 1
  | .returned _ => 0

/-! ## What holds in every state -/

def Dispatcher.isHalted : Dispatcher → Bool
  | .draining _ | .stopped => true
  | _ => false

theorem not_fresh_of_registered {phase : CallPhase} (registered : phase.isRegistered = true) :
    phase.isFresh = false := by
  cases phase <;> simp_all [CallPhase.isRegistered, CallPhase.isFresh]

structure CallsKnown (session : Session) : Prop where
  idsDistinct : (session.calls.map Call.id).Nodup
  idsBefore : ∀ call ∈ session.calls, call.id < session.nextId
  waiting : ∀ key number, session.responseWaiters.read key = some number →
    ∃ call, session.calls[number]? = some call ∧ call.key = key ∧
      call.phase.isRegistered = true ∧ call.channel = none
  delivering : ∀ number value, session.dispatcher = .delivering number value →
    ∃ call, session.calls[number]? = some call ∧ call.phase.isFresh = false ∧
      Answers session call value
  notWaiting : ∀ number value, session.dispatcher = .delivering number value →
    ¬ session.IsWaiter number
  silent : ∀ (number : ℕ) (call : Call), session.calls[number]? = some call →
    call.phase.isFresh = true → call.channel = none
  delivered : ∀ (number : ℕ) (call : Call) (value : Value), session.calls[number]? = some call →
    call.channel = some (.ok value) → Answers session call value
  returned : ∀ (number : ℕ) (call : Call) (result : Value), session.calls[number]? = some call →
    call.phase = .returned (.ok result) →
    ∃ response, Answers session call response ∧ responseResult response = .ok result
  dispatching : ∀ arrival value, session.dispatcher = .dispatching arrival value →
    value ∈ session.received
  failed : session.transportError.isSome = true → session.dispatcher.isHalted = true
  drained : session.TransportFailed → ∀ key number call,
    session.responseWaiters.read key = some number → session.calls[number]? = some call →
    call.phase.isExposed = false

variable {session : Session}

theorem eq_of_key_eq (known : CallsKnown session) {first second : ℕ} {firstCall secondCall : Call}
    (firstAt : session.calls[first]? = some firstCall)
    (secondAt : session.calls[second]? = some secondCall)
    (same : firstCall.id = secondCall.id) : first = second := by
  have firstId : (session.calls.map Call.id)[first]? = some firstCall.id := by
    rw [List.getElem?_map, firstAt]
    rfl
  have secondId : (session.calls.map Call.id)[second]? = some firstCall.id := by
    rw [List.getElem?_map, secondAt, same]
    rfl
  rcases List.getElem?_eq_some_iff.mp firstId with ⟨firstInRange, firstEq⟩
  rcases List.getElem?_eq_some_iff.mp secondId with ⟨secondInRange, secondEq⟩
  exact (List.Nodup.getElem_inj_iff known.idsDistinct).mp (firstEq.trans secondEq.symm)

theorem CallsKnown.paired (known : CallsKnown session) : CallsPaired session := by
  refine ⟨known.returned, ?_, ?_, ?_⟩
  · intro late other lateCall otherCall response lateAt otherAt different delivered lateId
    have ownId := (known.delivered other otherCall response otherAt delivered).ownId
    rw [ownId, Option.some.injEq] at lateId
    apply different
    apply eq_of_key_eq known lateAt otherAt
    exact Int.natCast_inj.mp (Value.integer_text_injective (congrArg Value.text lateId.symm))
  · intro number call callAt hasReturned
    have notRegistered : call.phase.isRegistered = false := by
      cases phase : call.phase with
      | returned result => rfl
      | _ => simp [Call.hasReturned, phase] at hasReturned
    have noKey (key : String) : session.responseWaiters.read key ≠ some number := by
      intro found
      rcases known.waiting key number found with ⟨other, otherAt, _, registered, _⟩
      rw [callAt, Option.some.injEq] at otherAt
      rw [← otherAt, notRegistered] at registered
      exact absurd registered (by simp)
    refine ⟨fun ⟨key, found⟩ => noKey key found, ?_⟩
    cases found : session.responseWaiters.read call.key with
    | none => rfl
    | some waiter =>
        rcases known.waiting call.key waiter found with ⟨other, otherAt, sameKey, _, _⟩
        have sameId : other.id = call.id :=
          Int.natCast_inj.mp (Value.integer_text_injective sameKey)
        exact absurd (eq_of_key_eq known otherAt callAt sameId ▸ found) (noKey call.key)
  · rintro failed number call callAt exposed ⟨key, found⟩
    exact absurd (known.drained failed key number call found callAt) (by simp [exposed])

/-! ## What a step does -/

/-- Nothing happens to the calls, and a dispatcher that halted stays where it is. -/
structure CallsSame (session after : Session) : Prop where
  calls : after.calls = session.calls
  responseWaiters : after.responseWaiters = session.responseWaiters
  transportError : after.transportError = session.transportError
  nextId : after.nextId = session.nextId
  received : after.received = session.received
  delivering : ∀ number value, after.dispatcher = .delivering number value →
    session.dispatcher = .delivering number value
  dispatching : ∀ arrival value, after.dispatcher = .dispatching arrival value →
    session.dispatcher = .dispatching arrival value
  halted : session.dispatcher.isHalted = true → after.dispatcher = session.dispatcher

theorem CallsSame.of_dispatcher {after : Session} (calls : after.calls = session.calls)
    (responseWaiters : after.responseWaiters = session.responseWaiters)
    (transportError : after.transportError = session.transportError)
    (nextId : after.nextId = session.nextId) (received : after.received = session.received)
    (dispatcher : after.dispatcher = session.dispatcher) : CallsSame session after where
  calls := calls
  responseWaiters := responseWaiters
  transportError := transportError
  nextId := nextId
  received := received
  delivering _ _ next := dispatcher ▸ next
  dispatching _ _ next := dispatcher ▸ next
  halted _ := dispatcher

theorem CallsSame.refl (session : Session) : CallsSame session session :=
  .of_dispatcher rfl rfl rfl rfl rfl rfl

/-- Nothing happens but to the calls, the waiters and the writer. -/
structure CallsOnly (session after : Session) : Prop where
  transportError : after.transportError = session.transportError
  nextId : after.nextId = session.nextId
  received : after.received = session.received
  dispatcher : after.dispatcher = session.dispatcher

/-- A phase that a call may go on to while its waiter stays as it is. -/
structure GoesOn (session : Session) (number : ℕ) (call : Call) (phase : CallPhase) : Prop where
  registered : call.phase.isRegistered = true →
    phase.isRegistered = true ∨ session.senderAlive number = false ∨ call.channel ≠ none
  exposed : phase.isExposed = true → session.transportError = none ∨ call.phase.isExposed = true
  fresh : phase.isFresh = true → call.phase.isFresh = true
  rank : phase.rank < call.phase.rank
  result : ∀ result, phase = .returned (.ok result) →
    ∃ response, call.channel = some (.ok response) ∧ responseResult response = .ok result

/-- The moves that the steps come down to for the calls. -/
inductive CallMoves (session : Session) : Session → Prop where
  | quiet {after : Session} (same : CallsSame session after) : CallMoves session after
  | received {after : Session} (value : Value) (calls : after.calls = session.calls)
      (responseWaiters : after.responseWaiters = session.responseWaiters)
      (transportError : after.transportError = session.transportError)
      (nextId : after.nextId = session.nextId)
      (received : after.received = session.received ++ [value])
      (before : session.dispatcher = .receiving)
      (dispatcher : after.dispatcher = .dispatching session.received.length value) :
      CallMoves session after
  | took {arrival number : ℕ} {value id : Value} {key : String}
      (dispatching : session.dispatcher = .dispatching arrival value)
      (idEq : value.get "id" = some id) (noMethod : methodOf value = none)
      (keyEq : serverRequestIdKey id = .ok key)
      (waiter : session.responseWaiters.read key = some number) :
      CallMoves session
        { session with
          responseWaiters := session.responseWaiters.remove key
          dispatcher := .delivering number value }
  | delivered {number : ℕ} {value : Value}
      (delivering : session.dispatcher = .delivering number value) :
      CallMoves session { session.sendTo number (.ok value) with dispatcher := .receiving }
  | recorded (error : String) (recording : session.dispatcher = .recording error) :
      CallMoves session
        { session with transportError := some error, dispatcher := .draining error }
  | drained (error : String) (draining : session.dispatcher = .draining error) :
      CallMoves session (session.drainWaiters error)
  | begun {roots : List String} (request : Value) {phase : CallPhase}
      (isFirst : phase = .checking ∨ ∃ error, phase = .returned (.error error)) :
      CallMoves session
        { session with
          roots
          nextId := session.nextId + 1
          calls := session.calls ++ [⟨session.nextId, request, phase, none⟩] }
  | advanced {number : ℕ} {call : Call} {phase : CallPhase} {after : Session}
      (found : session.calls[number]? = some call) (goesOn : GoesOn session number call phase)
      (calls : after.calls = (session.setCall number phase).calls)
      (responseWaiters : after.responseWaiters = session.responseWaiters)
      (only : CallsOnly session after) : CallMoves session after
  | registered {number : ℕ} {call : Call} (found : session.calls[number]? = some call)
      (registering : call.phase = .registering) :
      CallMoves session
        { session.setCall number .rechecking with
          responseWaiters := session.responseWaiters.write call.key number }
  | left {number : ℕ} {call : Call} {phase : CallPhase} {error : String} {notify : Bool}
      (found : session.calls[number]? = some call) (leaving : call.phase = .leaving error notify)
      (isLast : phase = .notifying error ∨ phase = .returned (.error error)) :
      CallMoves session
        { session.setCall number phase with
          responseWaiters := session.responseWaiters.remove call.key }

theorem receive_callMoves (incoming : Session.Incoming) :
    CallMoves session (session.receive incoming) := by
  simp only [Session.receive]
  cases receiving : session.dispatcher with
  | receiving =>
      cases incoming with
      | message value => exact .received value rfl rfl rfl rfl rfl receiving rfl
      | _ =>
          exact .quiet ⟨rfl, rfl, rfl, rfl, rfl, by simp, by simp,
            by simp [receiving, Dispatcher.isHalted]⟩
  | _ => exact .quiet (.refl _)

theorem dispatchStdioMessage_callMoves {arrival : ℕ} {value : Value}
    (dispatching : session.dispatcher = .dispatching arrival value) :
    CallMoves session (session.dispatchStdioMessage arrival value) := by
  have notHalted {after : Dispatcher} : session.dispatcher.isHalted = true →
      after = session.dispatcher := by simp [dispatching, Dispatcher.isHalted]
  simp only [Session.dispatchStdioMessage]
  split
  case h_1 id method idEq methodEq =>
      split
      case h_1 => exact .quiet ⟨rfl, rfl, rfl, rfl, rfl, by simp, by simp, notHalted⟩
      case h_2 =>
          simp only [Session.accept]
          split
          case h_1 => exact .quiet ⟨rfl, rfl, rfl, rfl, rfl, by simp, by simp, notHalted⟩
          case h_2 =>
              split <;> exact .quiet ⟨rfl, rfl, rfl, rfl, rfl, by simp, by simp, notHalted⟩
  case h_2 id idEq methodEq =>
      simp only [Session.takeWaiter]
      split
      case h_1 => exact .quiet ⟨rfl, rfl, rfl, rfl, rfl, by simp, by simp, notHalted⟩
      case h_2 key keyEq =>
          cases waiter : session.responseWaiters.read key with
          | none =>
              exact .quiet ⟨rfl, Store.remove_of_read_eq_none waiter, rfl, rfl, rfl, by simp,
                by simp, notHalted⟩
          | some number => exact .took dispatching idEq methodEq keyEq waiter
  case h_3 => exact .quiet ⟨rfl, rfl, rfl, rfl, rfl, by simp, by simp, notHalted⟩

theorem dispatch_callMoves (outcome : WriteOutcome) :
    CallMoves session (session.dispatch outcome) := by
  simp only [Session.dispatch]
  cases next : session.dispatcher with
  | receiving => exact .quiet (.refl _)
  | dispatching arrival value => exact dispatchStdioMessage_callMoves next
  | replying reply =>
      refine .quiet ⟨rfl, rfl, rfl, rfl, rfl, ?_, ?_, by simp [next, Dispatcher.isHalted]⟩
      all_goals cases outcome.result <;> simp
  | delivering number value => exact .delivered next
  | failing error =>
      refine .quiet ⟨rfl, rfl, rfl, rfl, rfl, ?_, ?_, by simp [next, Dispatcher.isHalted]⟩
      all_goals cases session.closing <;> simp
  | recording error => exact .recorded error next
  | draining error => exact .drained error next
  | stopped => exact .quiet (.refl _)

theorem poll_callMoves {number : ℕ} {call : Call} (stderr : Except String Unit)
    (found : session.calls[number]? = some call) (waiting : call.phase = .waiting) :
    CallMoves session (session.poll number call stderr) := by
  simp only [Session.poll]
  split
  case h_1 response delivered =>
      refine .advanced found ⟨?_, ?_, by simp [CallPhase.isFresh], ?_, ?_⟩ rfl rfl
        ⟨rfl, rfl, rfl, rfl⟩
      · exact fun _ => .inr (.inr (by simp [delivered]))
      · exact fun exposed => absurd exposed (by simp [CallPhase.isExposed])
      · simp [waiting, CallPhase.rank]
      · intro result isResult
        refine ⟨response, delivered, ?_⟩
        simp only [CallPhase.returned.injEq] at isResult
        cases responded : responseResult response with
        | error failure => simp [responded, bind, Except.bind] at isResult
        | ok value =>
            cases stderr with
            | error failure => simp [responded, bind, Except.bind] at isResult
            | ok =>
                simp only [responded, bind, Except.bind, pure, Except.pure,
                  Except.ok.injEq] at isResult
                rw [isResult]
  case h_2 error delivered =>
      refine .advanced found ⟨?_, ?_, by simp [CallPhase.isFresh], ?_, by simp⟩ rfl rfl
        ⟨rfl, rfl, rfl, rfl⟩
      · exact fun _ => .inr (.inr (by simp [delivered]))
      · exact fun exposed => absurd exposed (by simp [CallPhase.isExposed])
      · simp [waiting, CallPhase.rank]
  case h_3 =>
      split
      case isTrue => exact .quiet (.refl _)
      case isFalse notAlive =>
          refine .advanced found ⟨?_, ?_, by simp [CallPhase.isFresh], ?_, by simp⟩ rfl rfl
            ⟨rfl, rfl, rfl, rfl⟩
          · exact fun _ => .inr (.inl (by simpa using notAlive))
          · exact fun exposed => absurd exposed (by simp [CallPhase.isExposed])
          · simp [waiting, CallPhase.rank]

theorem advanceCall_callMoves (number : ℕ) (wake : Session.Wake) (outcome : WriteOutcome) :
    CallMoves session (session.advanceCall number wake outcome) := by
  simp only [Session.advanceCall]
  cases found : session.calls[number]? with
  | none => exact .quiet (.refl _)
  | some call =>
      simp only [Session.waitForClientResponse]
      cases phase : call.phase with
      | checking =>
          cases session.transportError with
          | none =>
              exact .advanced found ⟨by simp [phase, CallPhase.isRegistered],
                by simp [CallPhase.isExposed], by simp [phase, CallPhase.isFresh],
                by simp [phase, CallPhase.rank], by simp⟩ rfl rfl
                ⟨rfl, rfl, rfl, rfl⟩
          | some error =>
              exact .advanced found ⟨by simp [phase, CallPhase.isRegistered],
                by simp [CallPhase.isExposed], by simp [CallPhase.isFresh],
                by simp [phase, CallPhase.rank], by simp⟩ rfl rfl
                ⟨rfl, rfl, rfl, rfl⟩
      | registering => exact .registered found phase
      | rechecking =>
          cases failed : session.transportError with
          | none =>
              exact .advanced found ⟨fun _ => .inl rfl, fun _ => .inl failed,
                by simp [CallPhase.isFresh],
                by simp [phase, CallPhase.rank], by simp⟩ rfl rfl ⟨rfl, rfl, rfl, rfl⟩
          | some error =>
              exact .advanced found ⟨fun _ => .inl rfl, by simp [CallPhase.isExposed],
                by simp [CallPhase.isFresh],
                by simp [phase, CallPhase.rank], by simp⟩ rfl rfl ⟨rfl, rfl, rfl, rfl⟩
      | sending =>
          have exposed : call.phase.isExposed = true := by rw [phase]; rfl
          cases outcome with
          | written =>
              exact .advanced found ⟨fun _ => .inl rfl, fun _ => .inr exposed,
                by simp [WriteOutcome.result, CallPhase.isFresh],
                by simp [phase, WriteOutcome.result, CallPhase.rank],
                by simp [WriteOutcome.result]⟩ rfl rfl ⟨rfl, rfl, rfl, rfl⟩
          | failed error through kept =>
              exact .advanced found ⟨fun _ => .inl rfl, fun _ => .inr exposed,
                by simp [WriteOutcome.result, CallPhase.isFresh],
                by simp [phase, WriteOutcome.result, CallPhase.rank],
                by simp [WriteOutcome.result]⟩ rfl rfl ⟨rfl, rfl, rfl, rfl⟩
      | waiting =>
          cases wake with
          | cancelled =>
              exact .advanced found ⟨fun _ => .inl rfl, by simp [CallPhase.isExposed],
                by simp [CallPhase.isFresh],
                by simp [phase, CallPhase.rank], by simp⟩ rfl rfl ⟨rfl, rfl, rfl, rfl⟩
          | deadline =>
              exact .advanced found ⟨fun _ => .inl rfl, by simp [CallPhase.isExposed],
                by simp [CallPhase.isFresh],
                by simp [phase, CallPhase.rank], by simp⟩ rfl rfl ⟨rfl, rfl, rfl, rfl⟩
          | poll stderr => exact poll_callMoves stderr found phase
      | leaving error notify =>
          refine .left found phase ?_
          cases notify
          · exact .inr rfl
          · exact .inl rfl
      | notifying error =>
          exact .advanced found ⟨by simp [phase, CallPhase.isRegistered],
            by simp [CallPhase.isExposed], by simp [CallPhase.isFresh],
                by simp [phase, CallPhase.rank], by simp⟩ rfl rfl
            ⟨rfl, rfl, rfl, rfl⟩
      | returned result => exact .quiet (.refl _)

theorem begin_callMoves (method : String) (params : Value) (roots : List String)
    (cancelled : Bool) (stderr : Except String Unit) :
    CallMoves session (session.begin method params roots cancelled stderr) := by
  simp only [Session.begin]
  split
  case isTrue => exact .quiet (.refl _)
  case isFalse =>
      split
      case isTrue => exact .quiet (.refl _)
      case isFalse =>
          split
          case isTrue => exact .quiet (.refl _)
          case isFalse =>
              cases stderr with
              | error error => exact .begun _ (.inr ⟨error, rfl⟩)
              | ok => exact .begun _ (.inl rfl)

theorem respond_callsSame (number : ℕ) (outcome : WriteOutcome) :
    CallsSame session (session.advanceRespond number outcome) := by
  simp only [Session.advanceRespond]
  cases found : session.responds[number]? with
  | none => exact .refl _
  | some respond =>
      rcases respond with ⟨input, phase⟩
      cases phase with
      | holding key request =>
          simp only [Session.answerRequest]
          split <;> exact .of_dispatcher rfl rfl rfl rfl rfl rfl
      | _ => exact .of_dispatcher rfl rfl rfl rfl rfl rfl

theorem step_callMoves (action : Session.Action) : CallMoves session (session.step action) := by
  cases action with
  | receive incoming => exact receive_callMoves incoming
  | dispatch outcome => exact dispatch_callMoves outcome
  | begin method params roots cancelled stderr =>
      exact begin_callMoves method params roots cancelled stderr
  | advanceCall number wake outcome => exact advanceCall_callMoves number wake outcome
  | advanceRespond number outcome => exact .quiet (respond_callsSame number outcome)
  | close =>
      simp only [Session.step]
      split <;> exact .quiet (.of_dispatcher rfl rfl rfl rfl rfl rfl)
  | _ => exact .quiet (.of_dispatcher rfl rfl rfl rfl rfl rfl)

/-! ## Lookups after a step -/

theorem calls_setCall (number other : ℕ) (phase : CallPhase) :
    (session.setCall number phase).calls[other]? =
      if number = other then session.calls[other]?.map fun call => { call with phase }
      else session.calls[other]? := by
  simp only [Session.setCall, List.getElem?_modify]
  split <;> simp

theorem calls_sendTo (number other : ℕ) (message : Except String Value) :
    (session.sendTo number message).calls[other]? =
      if number = other then
        session.calls[other]?.map fun call => { call with channel := some message }
      else session.calls[other]? := by
  simp only [Session.sendTo, List.getElem?_modify]
  split <;> simp

theorem calls_drainWaiters (error : String) (other : ℕ) :
    (session.drainWaiters error).calls[other]? =
      session.calls[other]?.map fun call =>
        if other ∈ session.responseWaiters.entries.map Prod.snd then
          { call with channel := some (.error error) }
        else call := by
  simp [Session.drainWaiters, List.getElem?_mapIdx]

theorem mem_waiters_iff {number : ℕ} :
    number ∈ session.responseWaiters.entries.map Prod.snd ↔ session.IsWaiter number := by
  simp only [List.mem_map, Session.IsWaiter, Store.read_eq_some_iff, Prod.exists,
    exists_eq_right]

theorem Answers.mono {after : Session} {call changed : Call} {response : Value}
    (answers : Answers session call response) (sameId : changed.id = call.id)
    (received : ∀ value ∈ session.received, value ∈ after.received) :
    Answers after changed response :=
  ⟨received response answers.received, answers.noMethod, by rw [sameId]; exact answers.ownId⟩

/-! ## Every step keeps it -/

theorem CallsKnown.quiet {after : Session} (known : CallsKnown session)
    (same : CallsSame session after) : CallsKnown after := by
  have answers {call : Call} {response : Value} (holds : Answers session call response) :
      Answers after call response :=
    holds.mono rfl fun value valueMem => same.received ▸ valueMem
  constructor
  · rw [same.calls]
    exact known.idsDistinct
  · rw [same.calls, same.nextId]
    exact known.idsBefore
  · rw [same.calls, same.responseWaiters]
    exact known.waiting
  · intro number value delivering
    rw [same.calls]
    rcases known.delivering number value (same.delivering number value delivering) with
      ⟨call, callAt, notFresh, holds⟩
    exact ⟨call, callAt, notFresh, answers holds⟩
  · intro number value delivering
    rw [Session.IsWaiter, same.responseWaiters]
    exact known.notWaiting number value (same.delivering number value delivering)
  · rw [same.calls]
    exact known.silent
  · rw [same.calls]
    exact fun number call value callAt delivered =>
      answers (known.delivered number call value callAt delivered)
  · rw [same.calls]
    intro number call result callAt returned
    rcases known.returned number call result callAt returned with ⟨response, holds, isResult⟩
    exact ⟨response, answers holds, isResult⟩
  · intro arrival value dispatching
    rw [same.received]
    exact known.dispatching arrival value (same.dispatching arrival value dispatching)
  · intro failed
    rw [same.transportError] at failed
    rw [same.halted (known.failed failed)]
    exact known.failed failed
  · rintro ⟨failed, stopped⟩
    rw [same.transportError] at failed
    rw [same.halted (known.failed failed)] at stopped
    rw [same.calls, same.responseWaiters]
    exact known.drained ⟨failed, stopped⟩

theorem CallsKnown.receive {value : Value} {after : Session} (known : CallsKnown session)
    (calls : after.calls = session.calls)
    (responseWaiters : after.responseWaiters = session.responseWaiters)
    (transportError : after.transportError = session.transportError)
    (nextId : after.nextId = session.nextId)
    (received : after.received = session.received ++ [value])
    (before : session.dispatcher = .receiving)
    (dispatcher : after.dispatcher = .dispatching session.received.length value) :
    CallsKnown after := by
  have answers {call : Call} {response : Value} (holds : Answers session call response) :
      Answers after call response :=
    holds.mono rfl fun value valueMem => by simp [received, valueMem]
  have unfailed : ¬ session.transportError.isSome = true := by
    intro failed
    have halted := known.failed failed
    simp [before, Dispatcher.isHalted] at halted
  constructor
  · rw [calls]
    exact known.idsDistinct
  · rw [calls, nextId]
    exact known.idsBefore
  · rw [calls, responseWaiters]
    exact known.waiting
  · simp [dispatcher]
  · simp [dispatcher]
  · rw [calls]
    exact known.silent
  · rw [calls]
    exact fun number call value callAt delivered =>
      answers (known.delivered number call value callAt delivered)
  · rw [calls]
    intro number call result callAt returned
    rcases known.returned number call result callAt returned with ⟨response, holds, isResult⟩
    exact ⟨response, answers holds, isResult⟩
  · intro arrival message next
    rw [dispatcher, Dispatcher.dispatching.injEq] at next
    simp [received, ← next.2]
  · intro failed
    exact absurd (transportError ▸ failed) unfailed
  · rintro ⟨failed, _⟩
    exact absurd (transportError ▸ failed) unfailed

theorem CallsKnown.take {arrival number : ℕ} {value id : Value} {key : String}
    (known : CallsKnown session) (dispatching : session.dispatcher = .dispatching arrival value)
    (idEq : value.get "id" = some id) (noMethod : methodOf value = none)
    (keyEq : serverRequestIdKey id = .ok key)
    (waiter : session.responseWaiters.read key = some number) :
    CallsKnown { session with
      responseWaiters := session.responseWaiters.remove key
      dispatcher := .delivering number value } := by
  have unfailed : ¬ session.transportError.isSome = true := by
    intro failed
    have halted := known.failed failed
    simp [dispatching, Dispatcher.isHalted] at halted
  refine ⟨known.idsDistinct, known.idsBefore, ?_, ?_, ?_, known.silent, ?_, ?_, by simp, ?_, ?_⟩
  · intro other waiting otherFound
    by_cases same : other = key
    · simp [same] at otherFound
    · rw [Store.read_remove_of_ne same] at otherFound
      exact known.waiting other waiting otherFound
  · intro other message delivering
    simp only [Dispatcher.delivering.injEq] at delivering
    rcases delivering with ⟨rfl, rfl⟩
    rcases known.waiting key number waiter with ⟨call, callAt, ownKey, registered, _⟩
    refine ⟨call, callAt, not_fresh_of_registered registered,
      known.dispatching arrival value dispatching, noMethod, ?_⟩
    rw [idEq, eq_integer_of_key (keyEq.trans (congrArg Except.ok ownKey.symm))]
  · rintro other message delivering ⟨otherKey, otherFound⟩
    simp only [Dispatcher.delivering.injEq] at delivering
    rcases delivering with ⟨rfl, rfl⟩
    by_cases same : otherKey = key
    · simp [same] at otherFound
    · rw [Store.read_remove_of_ne same] at otherFound
      rcases known.waiting key number waiter with ⟨call, callAt, ownKey, _⟩
      rcases known.waiting otherKey number otherFound with ⟨other, otherAt, otherOwnKey, _⟩
      rw [callAt, Option.some.injEq] at otherAt
      exact same (otherOwnKey.symm.trans (otherAt ▸ ownKey))
  · exact fun other call message callAt delivered =>
      (known.delivered other call message callAt delivered).mono rfl fun _ valueMem => valueMem
  · intro other call result callAt returned
    rcases known.returned other call result callAt returned with ⟨response, holds, isResult⟩
    exact ⟨response, holds.mono rfl fun _ valueMem => valueMem, isResult⟩
  · exact fun failed => absurd failed unfailed
  · exact fun failed => absurd failed.1 unfailed

/-- A change of the calls that keeps their identities and delivers what answers them. -/
theorem CallsKnown.revise {after : Session} (known : CallsKnown session)
    (ids : after.calls.map Call.id = session.calls.map Call.id)
    (nextId : after.nextId = session.nextId) (received : after.received = session.received)
    (revised : ∀ (number : ℕ) (changed : Call), after.calls[number]? = some changed →
      ∃ call, session.calls[number]? = some call ∧ changed.id = call.id ∧
        (changed.phase.isFresh = true →
          call.phase.isFresh = true ∧ changed.channel = call.channel) ∧
        (∀ response, changed.channel = some (.ok response) →
          call.channel = some (.ok response) ∨ Answers session call response) ∧
        ∀ result, changed.phase = .returned (.ok result) →
          call.phase = .returned (.ok result) ∨
            ∃ response, call.channel = some (.ok response) ∧ responseResult response = .ok result)
    (waiting : ∀ key number, after.responseWaiters.read key = some number →
      ∃ call, after.calls[number]? = some call ∧ call.key = key ∧
        call.phase.isRegistered = true ∧ call.channel = none)
    (delivering : ∀ number value, after.dispatcher = .delivering number value →
      session.dispatcher = .delivering number value)
    (notWaiting : ∀ number value, after.dispatcher = .delivering number value →
      ¬ after.IsWaiter number)
    (dispatching : ∀ arrival value, after.dispatcher = .dispatching arrival value →
      session.dispatcher = .dispatching arrival value)
    (failed : after.transportError.isSome = true → after.dispatcher.isHalted = true)
    (drained : after.TransportFailed → ∀ key number call,
      after.responseWaiters.read key = some number → after.calls[number]? = some call →
      call.phase.isExposed = false) : CallsKnown after := by
  have answers {call changed : Call} {response : Value} (sameId : changed.id = call.id)
      (holds : Answers session call response) : Answers after changed response :=
    holds.mono sameId fun value valueMem => received ▸ valueMem
  refine ⟨ids ▸ known.idsDistinct, ?_, waiting, ?_, notWaiting, ?_, ?_, ?_, ?_, failed, drained⟩
  · intro changed changedMem
    rcases List.mem_iff_getElem?.mp changedMem with ⟨number, changedAt⟩
    rcases revised number changed changedAt with ⟨call, callAt, sameId, _⟩
    rw [sameId, nextId]
    exact known.idsBefore call (List.mem_of_getElem? callAt)
  · intro number value isDelivering
    rcases known.delivering number value (delivering number value isDelivering) with
      ⟨call, callAt, notFresh, holds⟩
    have idAt : (after.calls.map Call.id)[number]? = some call.id := by
      rw [ids, List.getElem?_map, callAt]
      rfl
    rw [List.getElem?_map, Option.map_eq_some_iff] at idAt
    rcases idAt with ⟨changed, changedAt, sameId⟩
    refine ⟨changed, changedAt, ?_, answers sameId holds⟩
    rcases revised number changed changedAt with ⟨before, beforeAt, _, fresh, _⟩
    rw [callAt, Option.some.injEq] at beforeAt
    rw [Bool.eq_false_iff]
    intro isFresh
    rw [beforeAt, (fresh isFresh).1] at notFresh
    exact absurd notFresh (by simp)
  · intro number changed changedAt isFresh
    rcases revised number changed changedAt with ⟨call, callAt, _, fresh, _⟩
    rw [(fresh isFresh).2]
    exact known.silent number call callAt (fresh isFresh).1
  · intro number changed response changedAt delivered
    rcases revised number changed changedAt with ⟨call, callAt, sameId, _, channel, _⟩
    rcases channel response delivered with before | holds
    · exact answers sameId (known.delivered number call response callAt before)
    · exact answers sameId holds
  · intro number changed result changedAt returned
    rcases revised number changed changedAt with ⟨call, callAt, sameId, _, _, phase⟩
    rcases phase result returned with before | ⟨response, delivered, isResult⟩
    · rcases known.returned number call result callAt before with ⟨response, holds, isResult⟩
      exact ⟨response, answers sameId holds, isResult⟩
    · exact ⟨response, answers sameId (known.delivered number call response callAt delivered),
        isResult⟩
  · intro arrival value next
    rw [received]
    exact known.dispatching arrival value (dispatching arrival value next)

theorem ids_setCall (number : ℕ) (phase : CallPhase) :
    (session.setCall number phase).calls.map Call.id = session.calls.map Call.id :=
  map_modify_of_eq _ _ fun _ => rfl

theorem setCall_cases {number other : ℕ} {call changed : Call} {phase : CallPhase}
    (found : session.calls[number]? = some call)
    (changedAt : (session.setCall number phase).calls[other]? = some changed) :
    (other = number ∧ changed = { call with phase }) ∨
      other ≠ number ∧ session.calls[other]? = some changed := by
  rw [calls_setCall] at changedAt
  split at changedAt
  case isTrue same =>
      subst same
      rw [found, Option.map_some, Option.some.injEq] at changedAt
      exact .inl ⟨rfl, changedAt.symm⟩
  case isFalse different => exact .inr ⟨Ne.symm different, changedAt⟩

theorem exists_setCall {number other : ℕ} {call otherCall : Call} (phase : CallPhase)
    (found : session.calls[number]? = some call)
    (otherAt : session.calls[other]? = some otherCall) :
    (session.setCall number phase).calls[other]? =
      some (if number = other then { call with phase } else otherCall) := by
  rw [calls_setCall]
  split
  case isTrue same =>
      subst same
      rw [found, Option.map_some]
  case isFalse different => exact otherAt

/-- A new phase of one call, which returns a result only if that was delivered. -/
theorem CallsKnown.setCall {number : ℕ} {call : Call} {phase : CallPhase} {after : Session}
    (known : CallsKnown session) (found : session.calls[number]? = some call)
    (fresh : phase.isFresh = true → call.phase.isFresh = true)
    (result : ∀ result, phase = .returned (.ok result) →
      ∃ response, call.channel = some (.ok response) ∧ responseResult response = .ok result)
    (calls : after.calls = (session.setCall number phase).calls) (only : CallsOnly session after)
    (notWaiting : ∀ other value, session.dispatcher = .delivering other value →
      ¬ after.IsWaiter other)
    (waiting : ∀ key other, after.responseWaiters.read key = some other →
      ∃ waiter, after.calls[other]? = some waiter ∧ waiter.key = key ∧
        waiter.phase.isRegistered = true ∧ waiter.channel = none)
    (drained : after.TransportFailed → ∀ key other waiter,
      after.responseWaiters.read key = some other → after.calls[other]? = some waiter →
      waiter.phase.isExposed = false) : CallsKnown after := by
  refine known.revise ?_ only.nextId only.received ?_ waiting ?_ ?_ ?_ ?_ drained
  · rw [calls]
    exact ids_setCall number phase
  · intro other changed changedAt
    rw [calls] at changedAt
    rcases setCall_cases found changedAt with ⟨rfl, rfl⟩ | ⟨_, before⟩
    · exact ⟨call, found, rfl, fun isFresh => ⟨fresh isFresh, rfl⟩,
        fun _ delivered => .inl delivered, fun value isResult => .inr (result value isResult)⟩
    · exact ⟨changed, before, rfl, fun isFresh => ⟨isFresh, rfl⟩,
        fun _ delivered => .inl delivered, fun _ returned => .inl returned⟩
  · exact fun other value next => only.dispatcher ▸ next
  · exact fun other value next => notWaiting other value (only.dispatcher ▸ next)
  · exact fun arrival value next => only.dispatcher ▸ next
  · rw [only.transportError, only.dispatcher]
    exact known.failed

theorem TransportFailed.before {after : Session} (only : CallsOnly session after)
    (failed : after.TransportFailed) : session.TransportFailed :=
  ⟨only.transportError ▸ failed.1, only.dispatcher ▸ failed.2⟩

theorem CallsKnown.advance {number : ℕ} {call : Call} {phase : CallPhase} {after : Session}
    (known : CallsKnown session) (found : session.calls[number]? = some call)
    (goesOn : GoesOn session number call phase)
    (calls : after.calls = (session.setCall number phase).calls)
    (responseWaiters : after.responseWaiters = session.responseWaiters)
    (only : CallsOnly session after) : CallsKnown after := by
  refine known.setCall found goesOn.fresh goesOn.result calls only ?_ ?_ ?_
  · intro other value delivering
    rw [Session.IsWaiter, responseWaiters]
    exact known.notWaiting other value delivering
  · intro key other waiter
    rw [responseWaiters] at waiter
    rcases known.waiting key other waiter with ⟨otherCall, otherAt, ownKey, registered, channel⟩
    rw [calls]
    refine ⟨_, exists_setCall phase found otherAt, ?_⟩
    split
    case isTrue same =>
        subst same
        rw [found, Option.some.injEq] at otherAt
        subst otherAt
        refine ⟨ownKey, ?_, channel⟩
        rcases goesOn.registered registered with stays | dead | delivered
        · exact stays
        · have alive : number ∈ session.responseWaiters.entries.map Prod.snd :=
            mem_waiters_iff.mpr ⟨key, waiter⟩
          simp [Session.senderAlive, alive] at dead
        · exact absurd channel delivered
    case isFalse => exact ⟨ownKey, registered, channel⟩
  · intro failed key other changed waiter changedAt
    have failedBefore := TransportFailed.before only failed
    rw [responseWaiters] at waiter
    rw [calls] at changedAt
    rcases setCall_cases found changedAt with ⟨rfl, rfl⟩ | ⟨_, before⟩
    · have notExposed := known.drained failedBefore key other call waiter found
      rw [Bool.eq_false_iff]
      intro exposed
      rcases goesOn.exposed exposed with unfailed | exposedBefore
      · simp [Session.TransportFailed, unfailed] at failedBefore
      · exact absurd exposedBefore (by simp [notExposed])
    · exact known.drained failedBefore key other changed waiter before

theorem CallsKnown.register {number : ℕ} {call : Call} (known : CallsKnown session)
    (found : session.calls[number]? = some call) (registering : call.phase = .registering) :
    CallsKnown { session.setCall number .rechecking with
      responseWaiters := session.responseWaiters.write call.key number } := by
  have silent := known.silent number call found (by rw [registering]; rfl)
  refine known.setCall found (by simp [CallPhase.isFresh]) (by simp) rfl ⟨rfl, rfl, rfl, rfl⟩
    ?_ ?_ ?_
  · rintro other value delivering ⟨key, waiter⟩
    by_cases same : key = call.key
    · subst same
      simp only [Store.read_write_self, Option.some.injEq] at waiter
      subst waiter
      rcases known.delivering number value delivering with ⟨taken, takenAt, notFresh, _⟩
      rw [found, Option.some.injEq] at takenAt
      rw [← takenAt, registering] at notFresh
      exact absurd notFresh (by simp [CallPhase.isFresh])
    · rw [Store.read_write_of_ne same] at waiter
      exact known.notWaiting other value delivering ⟨key, waiter⟩
  · intro key other waiter
    by_cases same : key = call.key
    · subst same
      simp only [Store.read_write_self, Option.some.injEq] at waiter
      subst waiter
      refine ⟨_, exists_setCall .rechecking found found, ?_⟩
      rw [if_pos rfl]
      exact ⟨rfl, rfl, silent⟩
    · rw [Store.read_write_of_ne same] at waiter
      rcases known.waiting key other waiter with ⟨otherCall, otherAt, ownKey, registered, channel⟩
      refine ⟨_, exists_setCall .rechecking found otherAt, ?_⟩
      split
      case isTrue same =>
          subst same
          rw [found, Option.some.injEq] at otherAt
          subst otherAt
          exact ⟨ownKey, rfl, channel⟩
      case isFalse => exact ⟨ownKey, registered, channel⟩
  · intro failed key other changed waiter changedAt
    rcases setCall_cases found changedAt with ⟨rfl, rfl⟩ | ⟨different, before⟩
    · rfl
    · by_cases same : key = call.key
      · subst same
        simp only [Store.read_write_self, Option.some.injEq] at waiter
        exact absurd waiter.symm different
      · rw [Store.read_write_of_ne same] at waiter
        exact known.drained failed key other changed waiter before

theorem CallsKnown.leave {number : ℕ} {call : Call} {phase : CallPhase} {error : String}
    (known : CallsKnown session) (found : session.calls[number]? = some call)
    (isLast : phase = .notifying error ∨ phase = .returned (.error error)) :
    CallsKnown { session.setCall number phase with
      responseWaiters := session.responseWaiters.remove call.key } := by
  have others {key : String} {other : ℕ}
      (waiter : (session.responseWaiters.remove call.key).read key = some other) :
      session.responseWaiters.read key = some other ∧ other ≠ number := by
    by_cases same : key = call.key
    · simp [same] at waiter
    · rw [Store.read_remove_of_ne same] at waiter
      refine ⟨waiter, ?_⟩
      rintro rfl
      rcases known.waiting key other waiter with ⟨otherCall, otherAt, ownKey, _⟩
      rw [found, Option.some.injEq] at otherAt
      exact same (otherAt ▸ ownKey.symm)
  refine known.setCall found ?_ ?_ rfl ⟨rfl, rfl, rfl, rfl⟩ ?_ ?_ ?_
  · rcases isLast with rfl | rfl <;> simp [CallPhase.isFresh]
  · rcases isLast with rfl | rfl <;> simp
  · rintro other value delivering ⟨key, waiter⟩
    exact known.notWaiting other value delivering ⟨key, (others waiter).1⟩
  · intro key other waiter
    rcases others waiter with ⟨before, different⟩
    rcases known.waiting key other before with ⟨otherCall, otherAt, holds⟩
    refine ⟨_, exists_setCall phase found otherAt, ?_⟩
    rw [if_neg (Ne.symm different)]
    exact holds
  · intro failed key other changed waiter changedAt
    rcases others waiter with ⟨before, different⟩
    rcases setCall_cases found changedAt with ⟨same, _⟩ | ⟨_, changedBefore⟩
    · exact absurd same different
    · exact known.drained failed key other changed before changedBefore

theorem CallsKnown.deliver {number : ℕ} {value : Value} (known : CallsKnown session)
    (delivering : session.dispatcher = .delivering number value) :
    CallsKnown { session.sendTo number (.ok value) with dispatcher := .receiving } := by
  have unfailed : ¬ session.transportError.isSome = true := by
    intro failed
    have halted := known.failed failed
    simp [delivering, Dispatcher.isHalted] at halted
  rcases known.delivering number value delivering with ⟨call, callAt, notFresh, holds⟩
  refine known.revise ?_ rfl rfl ?_ ?_ (by simp) (by simp) (by simp)
    (fun failed => absurd failed unfailed) (fun failed => absurd failed.1 unfailed)
  · exact map_modify_of_eq _ _ fun _ => rfl
  · intro other changed changedAt
    simp only [calls_sendTo] at changedAt
    split at changedAt
    case isTrue same =>
        subst same
        rw [callAt, Option.map_some, Option.some.injEq] at changedAt
        subst changedAt
        refine ⟨call, callAt, rfl, ?_, ?_, fun _ returned => .inl returned⟩
        · exact fun isFresh => absurd isFresh (by simp [notFresh])
        · intro response delivered
          simp only [Option.some.injEq, Except.ok.injEq] at delivered
          exact .inr (delivered ▸ holds)
    case isFalse =>
        exact ⟨changed, changedAt, rfl, fun isFresh => ⟨isFresh, rfl⟩,
          fun _ delivered => .inl delivered, fun _ returned => .inl returned⟩
  · intro key other waiter
    rcases known.waiting key other waiter with ⟨waiting, waitingAt, holds⟩
    have different : number ≠ other := by
      rintro rfl
      exact known.notWaiting number value delivering ⟨key, waiter⟩
    refine ⟨waiting, ?_, holds⟩
    rw [calls_sendTo, if_neg different]
    exact waitingAt

theorem CallsKnown.drain (known : CallsKnown session) (error : String) :
    CallsKnown (session.drainWaiters error) := by
  have noWaiter (key : String) (number : ℕ) :
      (session.drainWaiters error).responseWaiters.read key ≠ some number := by
    simp [Session.drainWaiters, Store.read, Store.empty]
  refine known.revise ?_ rfl rfl ?_ (fun key number waiter => absurd waiter (noWaiter key number))
    ?_ ?_ ?_ (fun _ => rfl) (fun _ key number _ waiter => absurd waiter (noWaiter key number))
  · apply List.ext_getElem?
    intro index
    rw [List.getElem?_map, calls_drainWaiters, List.getElem?_map, Option.map_map]
    congr 1
    funext call
    simp only [Function.comp]
    split <;> rfl
  · intro number changed changedAt
    rw [calls_drainWaiters, Option.map_eq_some_iff] at changedAt
    rcases changedAt with ⟨call, callAt, rfl⟩
    refine ⟨call, callAt, ?_⟩
    split
    case isTrue drained =>
        refine ⟨rfl, fun isFresh => ?_, by simp, fun _ returned => .inl returned⟩
        rcases mem_waiters_iff.mp drained with ⟨key, waiter⟩
        rcases known.waiting key number waiter with ⟨other, otherAt, _, registered, _⟩
        rw [callAt, Option.some.injEq] at otherAt
        exact absurd isFresh (by simp [otherAt, not_fresh_of_registered registered])
    case isFalse =>
        exact ⟨rfl, fun isFresh => ⟨isFresh, rfl⟩, fun _ delivered => .inl delivered,
          fun _ returned => .inl returned⟩
  · simp [Session.drainWaiters]
  · simp [Session.drainWaiters]
  · simp [Session.drainWaiters]

theorem CallsKnown.begin (known : CallsKnown session) {roots : List String} (request : Value)
    {phase : CallPhase}
    (isFirst : phase = .checking ∨ ∃ error, phase = .returned (.error error)) :
    CallsKnown { session with
      roots
      nextId := session.nextId + 1
      calls := session.calls ++ [⟨session.nextId, request, phase, none⟩] } := by
  have earlier {number : ℕ} {call : Call} (callAt : session.calls[number]? = some call) :
      (session.calls ++ [⟨session.nextId, request, phase, none⟩])[number]? = some call := by
    rw [List.getElem?_append_left (List.getElem?_eq_some_iff.mp callAt).1]
    exact callAt
  have cases {number : ℕ} {call : Call}
      (callAt : (session.calls ++ [⟨session.nextId, request, phase, none⟩])[number]? = some call) :
      session.calls[number]? = some call ∨
        number = session.calls.length ∧ call = ⟨session.nextId, request, phase, none⟩ := by
    rw [List.getElem?_append] at callAt
    split at callAt
    case isTrue => exact .inl callAt
    case isFalse notBefore =>
        rw [List.getElem?_singleton] at callAt
        split at callAt
        case isTrue isLast =>
            rw [Option.some.injEq] at callAt
            exact .inr ⟨by omega, callAt.symm⟩
        case isFalse => exact absurd callAt (by simp)
  have answers {call : Call} {response : Value} (holds : Answers session call response) :
      Answers { session with
        roots
        nextId := session.nextId + 1
        calls := session.calls ++ [⟨session.nextId, request, phase, none⟩] } call response :=
    holds.mono rfl fun _ valueMem => valueMem
  have newPhase : phase.isRegistered = false ∧ phase.isExposed = false ∧
      ∀ result, phase ≠ .returned (.ok result) := by
    rcases isFirst with rfl | ⟨error, rfl⟩ <;> simp [CallPhase.isRegistered, CallPhase.isExposed]
  refine ⟨?_, ?_, ?_, ?_, known.notWaiting, ?_, ?_, ?_, known.dispatching, known.failed, ?_⟩
  · rw [List.map_append, List.map_singleton, List.nodup_append]
    refine ⟨known.idsDistinct, List.nodup_singleton _, ?_⟩
    intro id idMem other otherMem
    rcases List.mem_map.mp idMem with ⟨call, callMem, rfl⟩
    rw [List.mem_singleton.mp otherMem]
    exact Nat.ne_of_lt (known.idsBefore call callMem)
  · intro call callMem
    rcases List.mem_append.mp callMem with before | isNew
    · exact Nat.lt_succ_of_lt (known.idsBefore call before)
    · rw [List.mem_singleton.mp isNew]
      exact Nat.lt_succ_self _
  · intro key number waiter
    rcases known.waiting key number waiter with ⟨call, callAt, holds⟩
    exact ⟨call, earlier callAt, holds⟩
  · intro number value delivering
    rcases known.delivering number value delivering with ⟨call, callAt, notFresh, holds⟩
    exact ⟨call, earlier callAt, notFresh, answers holds⟩
  · intro number call callAt isFresh
    rcases cases callAt with before | ⟨_, rfl⟩
    · exact known.silent number call before isFresh
    · rfl
  · intro number call value callAt delivered
    rcases cases callAt with before | ⟨_, rfl⟩
    · exact answers (known.delivered number call value before delivered)
    · exact absurd delivered (by simp)
  · intro number call result callAt returned
    rcases cases callAt with before | ⟨_, rfl⟩
    · rcases known.returned number call result before returned with ⟨response, holds, isResult⟩
      exact ⟨response, answers holds, isResult⟩
    · exact absurd returned (newPhase.2.2 result)
  · intro failed key number call waiter callAt
    rcases cases callAt with before | ⟨_, rfl⟩
    · exact known.drained failed key number call waiter before
    · exact newPhase.2.1

theorem CallsKnown.record (known : CallsKnown session) (error : String) :
    CallsKnown { session with transportError := some error, dispatcher := .draining error } := by
  refine known.revise rfl rfl rfl ?_ known.waiting (by simp) (by simp) (by simp) (fun _ => rfl)
    (by simp [Session.TransportFailed])
  intro number call callAt
  exact ⟨call, callAt, rfl, fun isFresh => ⟨isFresh, rfl⟩, fun _ delivered => .inl delivered,
    fun _ returned => .inl returned⟩

theorem CallsKnown.step (known : CallsKnown session) (action : Session.Action) :
    CallsKnown (session.step action) := by
  have moves := @step_callMoves session action
  generalize session.step action = after at moves ⊢
  cases moves with
  | quiet same => exact known.quiet same
  | received value calls waiters error nextId received before dispatcher =>
      exact known.receive calls waiters error nextId received before dispatcher
  | took dispatching idEq noMethod keyEq waiter =>
      exact known.take dispatching idEq noMethod keyEq waiter
  | delivered delivering => exact known.deliver delivering
  | recorded error recording => exact known.record error
  | drained error draining => exact known.drain error
  | begun request isFirst => exact known.begin request isFirst
  | advanced found goesOn calls waiters only => exact known.advance found goesOn calls waiters only
  | registered found registering => exact known.register found registering
  | left found leaving isLast => exact known.leave found isLast

end Brunomnia.McpStdio
