import Brunomnia.Library.Lists
import Brunomnia.McpStdio.Session

/-!
# The life of a reviewed request

A request that the server sends for review is kept until it is answered, cancelled or replaced
by a newer one under its id. In every run it is answered at most once and a response that fails
gives it back, unless the response is over its limit, the write fails after the server cancelled
or replaced the request, or a later write brings out what a failed one kept in the buffer.
-/

namespace Brunomnia.McpStdio

open Serde Library

/-! ## What is expected of a run -/

namespace Session

/-- The server cancelled the key after the arrival of a request. -/
def CancelledSince (session : Session) (key : String) (arrival : ℕ) : Prop :=
  ∃ (n : ℕ) (value : Value), arrival < n ∧ session.received[n]? = some value ∧
    cancelledKey value = some key

/-- A newer request was accepted under the key. -/
def ReplacedSince (session : Session) (key : String) (arrival : ℕ) : Prop :=
  ∃ newer, arrival < newer ∧ (key, newer) ∈ session.accepted

def Stands (session : Session) (key : String) (request : Request) : Prop :=
  ¬ session.CancelledSince key request.arrival ∧ ¬ session.ReplacedSince key request.arrival

/-- The arrivals of the requests that were answered. -/
def answered (session : Session) : List ℕ :=
  session.writer.wire.filterMap Sent.answers

end Session

/-- No request is answered twice, and none is pending that was cancelled or replaced. -/
structure RequestsSafe (session : Session) : Prop where
  answeredOnce : session.answered.Nodup
  pendingStands : ∀ key request, session.serverRequests.read key = some request →
    session.Stands key request

/-- A response that ends with an error in this step leaves the request that it took pending,
unless the server cancelled or replaced it, and changes nothing if it took none. -/
def ErrorsRestore (session : Session) (action : Session.Action) : Prop :=
  ∀ (number : ℕ) (input : ServerResponseInput) (taken : Option (String × Request))
    (error : String),
    (session.step action).responds[number]? = some ⟨input, .returned taken (.error error)⟩ →
    session.responds[number]? ≠ some ⟨input, .returned taken (.error error)⟩ →
    match taken with
    | none => (session.step action).serverRequests = session.serverRequests
    | some (key, request) =>
        session.Stands key request → (session.step action).serverRequests.read key = some request

/-! ## When it holds -/

namespace Session

/-- How the write of a step ends, if the step writes. -/
def writing (session : Session) : Action → Option WriteOutcome
  | .dispatch outcome =>
      match session.dispatcher with
      | .replying _ => some outcome
      | _ => none
  | .advanceCall number _ outcome =>
      match (session.calls[number]?).map Call.phase with
      | some .sending | some (.notifying _) => some outcome
      | _ => none
  | .advanceRespond number outcome =>
      match session.responds[number]? with
      | some ⟨input, .holding _ _⟩ =>
          if input.encodedBytes > maxResponseBytes then none else some outcome
      | _ => none
  | .notify _ outcome => some outcome
  | _ => none

end Session

/-- The kept lines that a write brings out. -/
def WriteOutcome.brings (unsent : List Sent) : WriteOutcome → List Sent
  | .written => unsent
  | .failed _ through _ => unsent.take through

/-- A response is within the limit, a request that is put back was neither cancelled nor replaced,
and a write brings out no answer that an earlier write failed on. -/
structure RequestsUntouched (session : Session) (action : Session.Action) : Prop where
  withinLimit : ∀ number outcome input key request, action = .advanceRespond number outcome →
    session.responds[number]? = some ⟨input, .holding key request⟩ →
    input.encodedBytes ≤ maxResponseBytes
  standing : ∀ number outcome input key request error, action = .advanceRespond number outcome →
    session.responds[number]? = some ⟨input, .restoring key request error⟩ →
    session.Stands key request
  nothingLate : ∀ outcome, session.writing action = some outcome →
    ∀ sent ∈ outcome.brings session.writer.unsent, sent.answers = none

/-! ### Deciding it -/

theorem cancelledSince_iff {session : Session} {key : String} {arrival : ℕ} :
    session.CancelledSince key arrival ↔
      (session.received.drop (arrival + 1)).any
        (fun value => cancelledKey value = some key) = true := by
  simp only [Session.CancelledSince, List.any_eq_true, decide_eq_true_eq,
    List.mem_iff_getElem?, List.getElem?_drop]
  constructor
  · rintro ⟨n, value, later, valueAt, cancels⟩
    refine ⟨value, ⟨n - (arrival + 1), ?_⟩, cancels⟩
    rwa [Nat.add_sub_cancel' later]
  · rintro ⟨value, ⟨n, valueAt⟩, cancels⟩
    exact ⟨arrival + 1 + n, value, by omega, valueAt, cancels⟩

theorem replacedSince_iff {session : Session} {key : String} {arrival : ℕ} :
    session.ReplacedSince key arrival ↔
      session.accepted.any (fun entry => entry.1 = key ∧ arrival < entry.2) = true := by
  simp only [Session.ReplacedSince, List.any_eq_true, decide_eq_true_eq, Prod.exists]
  constructor
  · rintro ⟨newer, later, newerMem⟩
    exact ⟨key, newer, newerMem, rfl, later⟩
  · rintro ⟨_, newer, newerMem, rfl, later⟩
    exact ⟨newer, later, newerMem⟩

instance (session : Session) (key : String) (request : Request) :
    Decidable (session.Stands key request) :=
  decidable_of_iff (¬ _ ∧ ¬ _)
    (and_congr (not_congr cancelledSince_iff.symm) (not_congr replacedSince_iff.symm))

/-- The response that a step goes on with. -/
def respondingWith (session : Session) : Session.Action → Option Respond
  | .advanceRespond number _ => session.responds[number]?
  | _ => none

/-- What `RequestsUntouched` asks of the response that a step goes on with. -/
def respondUntouched (session : Session) (respond : Respond) : Prop :=
  match respond.phase with
  | .holding _ _ => respond.input.encodedBytes ≤ maxResponseBytes
  | .restoring key request _ => session.Stands key request
  | _ => True

instance (session : Session) (respond : Respond) : Decidable (respondUntouched session respond) :=
  match respond with
  | ⟨input, .holding _ _⟩ =>
      inferInstanceAs (Decidable (input.encodedBytes ≤ maxResponseBytes))
  | ⟨_, .restoring key request _⟩ => inferInstanceAs (Decidable (session.Stands key request))
  | ⟨_, .taking _⟩ | ⟨_, .returned _ _⟩ => isTrue trivial

theorem requestsUntouched_iff {session : Session} {action : Session.Action} :
    ((∀ respond ∈ respondingWith session action, respondUntouched session respond) ∧
      ∀ outcome ∈ session.writing action,
        ∀ sent ∈ outcome.brings session.writer.unsent, sent.answers = none) ↔
      RequestsUntouched session action := by
  constructor
  · rintro ⟨responding, nothingLate⟩
    refine ⟨?_, ?_, nothingLate⟩
    · rintro number outcome input key request rfl found
      exact responding _ found
    · rintro number outcome input key request error rfl found
      exact responding _ found
  · rintro ⟨withinLimit, standing, nothingLate⟩
    refine ⟨?_, nothingLate⟩
    rintro ⟨input, phase⟩ found
    cases action with
    | advanceRespond number outcome =>
        cases phase with
        | holding key request => exact withinLimit number outcome input key request rfl found
        | restoring key request error =>
            exact standing number outcome input key request error rfl found
        | _ => trivial
    | _ => exact absurd found (by simp [respondingWith])

instance (session : Session) (action : Session.Action) :
    Decidable (RequestsUntouched session action) :=
  decidable_of_iff _ requestsUntouched_iff

/-! ## What a step does -/

/-- Nothing happens to the requests of the server. -/
structure Quiet (session after : Session) : Prop where
  serverRequests : after.serverRequests = session.serverRequests
  responds : after.responds = session.responds
  received : after.received = session.received
  accepted : after.accepted = session.accepted
  dispatching : ∀ arrival value, after.dispatcher = .dispatching arrival value →
    session.dispatcher = .dispatching arrival value

theorem Quiet.refl (session : Session) : Quiet session session :=
  ⟨rfl, rfl, rfl, rfl, fun _ _ same => same⟩

/-- The moves that the steps come down to for the requests of the server. -/
inductive RequestMoves (session : Session) (action : Session.Action) : Session → Prop where
  | quiet {after : Session} (same : Quiet session after) (writer : after.writer = session.writer) :
      RequestMoves session action after
  | wrote {after : Session} {outcome : WriteOutcome} (message : Value)
      (same : Quiet session after) (writing : session.writing action = some outcome)
      (writer : after.writer = session.writer.send ⟨message, none⟩ outcome) :
      RequestMoves session action after
  | received (value : Value) (receiving : session.dispatcher = .receiving) :
      RequestMoves session action
        { session with
          dispatcher := .dispatching session.received.length value
          received := session.received ++ [value]
          serverRequests :=
            match cancelledKey value with
            | some key => session.serverRequests.remove key
            | none => session.serverRequests }
  | accepted {arrival : ℕ} {value : Value} (key : String)
      (dispatching : session.dispatcher = .dispatching arrival value) :
      RequestMoves session action
        { session with
          dispatcher := .receiving
          serverRequests := session.serverRequests.write key ⟨arrival, value⟩
          accepted := session.accepted ++ [(key, arrival)] }
  | asked (input : ServerResponseInput) : RequestMoves session action (session.respond input)
  | taken {number : ℕ} {input : ServerResponseInput} {key : String}
      (found : session.responds[number]? = some ⟨input, .taking key⟩) :
      RequestMoves session action (session.takeRequest number key)
  | answered {number : ℕ} {input : ServerResponseInput} {key : String} {request : Request}
      {outcome : WriteOutcome} (step : action = .advanceRespond number outcome)
      (found : session.responds[number]? = some ⟨input, .holding key request⟩) :
      RequestMoves session action (session.answerRequest number input key request outcome)
  | restored {number : ℕ} {input : ServerResponseInput} {key : String} {request : Request}
      {error : String} {outcome : WriteOutcome} (step : action = .advanceRespond number outcome)
      (found : session.responds[number]? = some ⟨input, .restoring key request error⟩) :
      RequestMoves session action
        { session.setRespond number (.returned (some (key, request)) (.error error)) with
          serverRequests := session.serverRequests.write key request }

variable {session : Session}

theorem receive_moves (incoming : Session.Incoming) :
    RequestMoves session (.receive incoming) (session.receive incoming) := by
  simp only [Session.receive]
  cases receiving : session.dispatcher with
  | receiving =>
      cases incoming with
      | message value => exact .received value receiving
      | _ => exact .quiet ⟨rfl, rfl, rfl, rfl, by simp⟩ rfl
  | _ => exact .quiet (.refl _) rfl

theorem dispatch_moves (outcome : WriteOutcome) :
    RequestMoves session (.dispatch outcome) (session.dispatch outcome) := by
  simp only [Session.dispatch]
  cases next : session.dispatcher with
  | receiving => exact .quiet (.refl _) rfl
  | dispatching arrival value =>
      simp only [Session.dispatchStdioMessage]
      split
      case h_1 id method idEq methodEq =>
          split
          case h_1 => exact .quiet ⟨rfl, rfl, rfl, rfl, by simp⟩ rfl
          case h_2 =>
              simp only [Session.accept]
              split
              case h_1 => exact .quiet ⟨rfl, rfl, rfl, rfl, by simp⟩ rfl
              case h_2 key keyEq =>
                  split
                  case isTrue => exact .quiet ⟨rfl, rfl, rfl, rfl, by simp⟩ rfl
                  case isFalse => exact .accepted key next
      case h_2 id idEq methodEq =>
          simp only [Session.takeWaiter]
          split
          case h_1 => exact .quiet ⟨rfl, rfl, rfl, rfl, by simp⟩ rfl
          case h_2 key keyEq =>
              refine .quiet ⟨rfl, rfl, rfl, rfl, ?_⟩ rfl
              cases session.responseWaiters.read key <;> simp
      case h_3 => exact .quiet ⟨rfl, rfl, rfl, rfl, by simp⟩ rfl
  | replying reply =>
      refine .wrote reply ⟨rfl, rfl, rfl, rfl, ?_⟩ (by simp [Session.writing, next]) rfl
      cases outcome.result <;> simp
  | delivering call value => exact .quiet ⟨rfl, rfl, rfl, rfl, by simp⟩ rfl
  | failing error =>
      refine .quiet ⟨rfl, rfl, rfl, rfl, ?_⟩ rfl
      cases session.closing <;> simp
  | recording error => exact .quiet ⟨rfl, rfl, rfl, rfl, by simp⟩ rfl
  | draining error => exact .quiet ⟨rfl, rfl, rfl, rfl, by simp [Session.drainWaiters]⟩ rfl
  | stopped => exact .quiet (.refl _) rfl

theorem setCall_quiet (number : ℕ) (phase : CallPhase) :
    Quiet session (session.setCall number phase) :=
  ⟨rfl, rfl, rfl, rfl, fun _ _ same => same⟩

theorem advanceCall_moves (number : ℕ) (wake : Session.Wake) (outcome : WriteOutcome) :
    RequestMoves session (.advanceCall number wake outcome)
      (session.advanceCall number wake outcome) := by
  simp only [Session.advanceCall]
  cases found : session.calls[number]? with
  | none => exact .quiet (.refl _) rfl
  | some call =>
      simp only [Session.waitForClientResponse]
      cases phase : call.phase with
      | checking => exact .quiet (setCall_quiet _ _) rfl
      | registering => exact .quiet ⟨rfl, rfl, rfl, rfl, fun _ _ same => same⟩ rfl
      | rechecking => exact .quiet (setCall_quiet _ _) rfl
      | sending =>
          exact .wrote call.request ⟨rfl, rfl, rfl, rfl, fun _ _ same => same⟩
            (by simp [Session.writing, found, phase]) rfl
      | waiting =>
          cases wake with
          | cancelled => exact .quiet (setCall_quiet _ _) rfl
          | deadline => exact .quiet (setCall_quiet _ _) rfl
          | poll stderr =>
              simp only [Session.poll]
              split
              case h_1 => exact .quiet (setCall_quiet _ _) rfl
              case h_2 => exact .quiet (setCall_quiet _ _) rfl
              case h_3 =>
                  split
                  case isTrue => exact .quiet (.refl _) rfl
                  case isFalse => exact .quiet (setCall_quiet _ _) rfl
      | leaving error notify => exact .quiet ⟨rfl, rfl, rfl, rfl, fun _ _ same => same⟩ rfl
      | notifying error =>
          exact .wrote (cancelNotification call.id) ⟨rfl, rfl, rfl, rfl, fun _ _ same => same⟩
            (by simp [Session.writing, found, phase]) rfl
      | returned result => exact .quiet (.refl _) rfl

theorem advanceRespond_moves (number : ℕ) (outcome : WriteOutcome) :
    RequestMoves session (.advanceRespond number outcome)
      (session.advanceRespond number outcome) := by
  simp only [Session.advanceRespond]
  cases found : session.responds[number]? with
  | none => exact .quiet (.refl _) rfl
  | some respond =>
      rcases respond with ⟨input, phase⟩
      cases phase with
      | taking key => exact .taken found
      | holding key request => exact .answered rfl found
      | restoring key request error => exact .restored rfl found
      | returned taken result => exact .quiet (.refl _) rfl

theorem begin_quiet (method : String) (params : Value) (roots : List String) (cancelled : Bool)
    (stderr : Except String Unit) :
    Quiet session (session.begin method params roots cancelled stderr) ∧
      (session.begin method params roots cancelled stderr).writer = session.writer := by
  simp only [Session.begin]
  split
  case isTrue => exact ⟨.refl _, rfl⟩
  case isFalse =>
      split
      case isTrue => exact ⟨.refl _, rfl⟩
      case isFalse =>
          split
          case isTrue => exact ⟨.refl _, rfl⟩
          case isFalse =>
              cases stderr <;> exact ⟨⟨rfl, rfl, rfl, rfl, fun _ _ same => same⟩, rfl⟩

theorem step_requestMoves (action : Session.Action) :
    RequestMoves session action (session.step action) := by
  cases action with
  | receive incoming => exact receive_moves incoming
  | dispatch outcome => exact dispatch_moves outcome
  | begin method params roots cancelled stderr =>
      have quiet := @begin_quiet session method params roots cancelled stderr
      exact .quiet quiet.1 quiet.2
  | advanceCall number wake outcome => exact advanceCall_moves number wake outcome
  | respond input => exact .asked input
  | advanceRespond number outcome => exact advanceRespond_moves number outcome
  | updateRoots roots => exact .quiet ⟨rfl, rfl, rfl, rfl, fun _ _ same => same⟩ rfl
  | notify message outcome =>
      exact .wrote message ⟨rfl, rfl, rfl, rfl, fun _ _ same => same⟩ rfl rfl
  | unregister => exact .quiet ⟨rfl, rfl, rfl, rfl, fun _ _ same => same⟩ rfl
  | close =>
      simp only [Session.step]
      split
      case isTrue => exact .quiet ⟨rfl, rfl, rfl, rfl, fun _ _ same => same⟩ rfl
      case isFalse => exact .quiet (.refl _) rfl

theorem answerRequest_same (number : ℕ) (input : ServerResponseInput) (key : String)
    (request : Request) (outcome : WriteOutcome) :
    let after := session.answerRequest number input key request outcome
    after.serverRequests = session.serverRequests ∧ after.received = session.received ∧
      after.accepted = session.accepted ∧ after.dispatcher = session.dispatcher := by
  simp only [Session.answerRequest]
  split <;> exact ⟨rfl, rfl, rfl, rfl⟩

/-! ## Where a request is -/

/-- The request that a response has taken and may give back. -/
def Respond.inHand (respond : Respond) : List ℕ :=
  match respond.phase with
  | .holding _ request | .restoring _ request _ => [request.arrival]
  | _ => []

namespace Session

def pendingArrivals (session : Session) : List ℕ :=
  session.serverRequests.entries.map fun entry => entry.2.arrival

def arrivalsInHand (session : Session) : List ℕ :=
  session.responds.flatMap Respond.inHand

/-- Every request that is pending, in the hands of a response or answered. -/
def places (session : Session) : Multiset ℕ :=
  session.pendingArrivals + session.arrivalsInHand + session.answered

/-- What arrived before this has been dispatched. -/
def horizon (session : Session) : ℕ :=
  match session.dispatcher with
  | .dispatching arrival _ => arrival
  | _ => session.received.length

end Session

theorem arrivalsInHand_setRespond {number : ℕ} {input : ServerResponseInput}
    {phase : RespondPhase} (found : session.responds[number]? = some ⟨input, phase⟩) :
    ∃ rest : Multiset ℕ, ↑session.arrivalsInHand = ↑(Respond.inHand ⟨input, phase⟩) + rest ∧
      ∀ after : RespondPhase, ((session.setRespond number after).arrivalsInHand : Multiset ℕ) =
        ↑(Respond.inHand ⟨input, after⟩) + rest := by
  rcases flatMap_set_perm found Respond.inHand with ⟨rest, before, replaced⟩
  refine ⟨rest, Multiset.coe_eq_coe.mpr before, fun after => ?_⟩
  have changed : (session.setRespond number after).responds =
      session.responds.set number ⟨input, after⟩ := by
    apply List.ext_getElem?
    intro index
    simp only [Session.setRespond, List.getElem?_modify, List.getElem?_set]
    by_cases same : number = index
    · subst same
      rcases List.getElem?_eq_some_iff.mp found with ⟨inRange, value⟩
      simp [inRange, value]
    · simp [same]
  rw [Session.arrivalsInHand, changed]
  exact Multiset.coe_eq_coe.mpr (replaced _)

theorem pendingArrivals_write_le (store : Store String Request) (key : String)
    (request : Request) :
    (((store.write key request).entries.map fun entry => entry.2.arrival : List ℕ) :
      Multiset ℕ) ≤ request.arrival ::ₘ ↑(store.entries.map fun entry => entry.2.arrival) := by
  rw [Multiset.cons_coe, Multiset.coe_le]
  simp only [Store.write, List.map_cons, List.subperm_cons]
  exact (List.filter_sublist.map _).subperm

theorem pendingArrivals_remove_le (store : Store String Request) (key : String) :
    (((store.remove key).entries.map fun entry => entry.2.arrival : List ℕ) : Multiset ℕ) ≤
      ↑(store.entries.map fun entry => entry.2.arrival) :=
  Multiset.coe_le.mpr (List.filter_sublist.map _).subperm

theorem answered_send {writer : Writer} {sent : Sent} {outcome : WriteOutcome}
    (nothingLate : ∀ sent ∈ outcome.brings writer.unsent, sent.answers = none) :
    (writer.send sent outcome).wire.filterMap Sent.answers =
      writer.wire.filterMap Sent.answers ++
        (match outcome with
          | .written => sent.answers.toList
          | .failed _ _ _ => []) := by
  have none_late : (outcome.brings writer.unsent).filterMap Sent.answers = [] :=
    List.filterMap_eq_nil_iff.mpr nothingLate
  cases outcome with
  | written =>
      simp only [WriteOutcome.brings] at none_late
      simp only [Writer.send, List.filterMap_append, none_late, List.append_nil]
      cases answers : sent.answers <;> simp [answers]
  | failed error through kept =>
      simp only [WriteOutcome.brings] at none_late
      simp only [Writer.send, List.filterMap_append, none_late]

/-- A step moves requests between their places, or adds the one that is dispatched. -/
theorem places_step {action : Session.Action} (untouched : RequestsUntouched session action) :
    (session.step action).places ≤ session.places ∨
      ∃ arrival value, session.dispatcher = .dispatching arrival value ∧
        (session.step action).dispatcher = .receiving ∧
        (session.step action).places ≤ arrival ::ₘ session.places := by
  have moves := @step_requestMoves session action
  generalize session.step action = after at moves ⊢
  cases moves with
  | quiet same writer =>
      apply Or.inl
      simp [Session.places, Session.pendingArrivals, Session.arrivalsInHand, Session.answered,
        same.serverRequests, same.responds, writer]
  | @wrote _ outcome message same writing writer =>
      apply Or.inl
      have answers := @answered_send session.writer ⟨message, none⟩ outcome
        (untouched.nothingLate outcome writing)
      have unchanged : after.answered = session.answered := by
        rw [Session.answered, writer, answers]
        cases outcome <;> simp [Session.answered]
      simp [Session.places, Session.pendingArrivals, Session.arrivalsInHand,
        same.serverRequests, same.responds, unchanged]
  | received value receiving =>
      apply Or.inl
      simp only [Session.places]
      gcongr
      · simp only [Session.pendingArrivals]
        split
        · exact pendingArrivals_remove_le _ _
        · exact le_rfl
      · exact le_rfl
      · exact le_rfl
  | @accepted arrival value key dispatching =>
      refine .inr ⟨arrival, value, dispatching, rfl, ?_⟩
      have written := pendingArrivals_write_le session.serverRequests key ⟨arrival, value⟩
      simp only [Session.places, ← Multiset.cons_add]
      gcongr
      · exact written
      · exact le_rfl
      · exact le_rfl
  | asked input =>
      apply Or.inl
      have noHand : (session.respond input).arrivalsInHand = session.arrivalsInHand := by
        simp only [Session.arrivalsInHand, Session.respond, List.flatMap_append,
          List.flatMap_singleton, Respond.inHand]
        cases session.respondKey input <;> simp
      simp only [Session.places, noHand]
      exact le_rfl
  | @taken number input key found =>
      apply Or.inl
      rcases arrivalsInHand_setRespond found with ⟨rest, before, changed⟩
      simp only [Session.takeRequest]
      cases pending : session.serverRequests.read key with
      | none =>
          rw [Store.remove_of_read_eq_none pending]
          have hands := changed
            (.returned none (.error "The MCP server request is no longer pending."))
          simp only [Session.places]
          gcongr
          · exact le_rfl
          · exact (hands.trans before.symm).le
          · exact le_rfl
      | some request =>
          have hands := changed (.holding key request)
          have entries := (Store.entries_perm_of_read pending).map fun entry => entry.2.arrival
          have arrivals : (session.pendingArrivals : Multiset ℕ) = request.arrival ::ₘ
              ↑((session.serverRequests.remove key).entries.map fun entry => entry.2.arrival) :=
            Multiset.coe_eq_coe.mpr entries
          apply le_of_eq
          simp only [Session.places]
          rw [arrivals, before]
          simp only [Session.arrivalsInHand] at hands ⊢
          rw [hands]
          simp only [Respond.inHand, Session.pendingArrivals, Session.answered,
            Session.setRespond, Multiset.coe_nil, zero_add, Multiset.coe_singleton,
            ← Multiset.singleton_add]
          abel
  | @answered number input key request outcome step found =>
      apply Or.inl
      have small := untouched.withinLimit number outcome input key request step found
      have answers := @answered_send session.writer ⟨input.response, some request.arrival⟩ outcome
        (untouched.nothingLate outcome (by simp [step, Session.writing, found, small]))
      rcases arrivalsInHand_setRespond found with ⟨rest, before, changed⟩
      simp only [Session.answerRequest, if_neg (Nat.not_lt.mpr small)]
      cases outcome with
      | written =>
          have hands : (((session.write input.response (some request.arrival)
              .written).setRespond number (.returned (some (key, request)) (.ok ()))).arrivalsInHand
              : Multiset ℕ) = rest := by
            refine (changed (.returned (some (key, request)) (.ok ()))).trans ?_
            simp [Respond.inHand]
          have wire : ((session.write input.response (some request.arrival)
              .written).setRespond number (.returned (some (key, request)) (.ok ()))).answered =
              session.answered ++ [request.arrival] := answers
          apply le_of_eq
          simp only [WriteOutcome.result, Session.places, hands, wire, before]
          simp only [Respond.inHand, ← Multiset.coe_add, Multiset.coe_singleton]
          simp only [Session.pendingArrivals, Session.setRespond, Session.write]
          abel
      | failed error through kept =>
          have hands : (((session.write input.response (some request.arrival)
              (.failed error through kept)).setRespond number
              (.restoring key request error)).arrivalsInHand : Multiset ℕ) =
              session.arrivalsInHand := by
            rw [before]
            exact changed (.restoring key request error)
          have wire : ((session.write input.response (some request.arrival)
              (.failed error through kept)).setRespond number
              (.restoring key request error)).answered = session.answered :=
            answers.trans (List.append_nil _)
          apply le_of_eq
          simp only [WriteOutcome.result, Session.places, hands, wire]
          rfl
  | @restored number input key request error outcome step found =>
      apply Or.inl
      rcases arrivalsInHand_setRespond found with ⟨rest, before, changed⟩
      have hands : ((session.setRespond number
          (.returned (some (key, request)) (.error error))).arrivalsInHand : Multiset ℕ) =
            rest := by
        simpa [Respond.inHand] using changed (.returned (some (key, request)) (.error error))
      have written := pendingArrivals_write_le session.serverRequests key request
      simp only [Session.places, Session.pendingArrivals, Session.answered, before]
      simp only [Session.arrivalsInHand] at hands ⊢
      rw [hands]
      simp only [Respond.inHand, Multiset.coe_singleton]
      calc _ ≤ (request.arrival ::ₘ ↑(session.serverRequests.entries.map
              fun entry => entry.2.arrival)) + rest + ↑session.answered := by
            gcongr
            exact le_rfl
        _ = _ := by
            rw [← Multiset.singleton_add, Session.answered]
            abel

/-! ## What holds in every state -/

/-- Every request that was accepted has been dispatched, and is in one place at most. -/
structure RequestsKnown (session : Session) : Prop where
  distinct : session.places.Nodup
  placesBefore : ∀ arrival ∈ session.places, arrival < session.horizon
  acceptedBefore : ∀ entry ∈ session.accepted, entry.2 < session.horizon
  dispatchingLast : ∀ arrival value, session.dispatcher = .dispatching arrival value →
    session.received.length = arrival + 1

theorem RequestsKnown.horizon_le (known : RequestsKnown session) :
    session.horizon ≤ session.received.length := by
  simp only [Session.horizon]
  split
  case h_1 arrival value dispatching =>
      rw [known.dispatchingLast arrival value dispatching]
      exact Nat.le_succ arrival
  case h_2 => exact le_rfl

theorem horizon_eq_of_receiving (receiving : session.dispatcher = .receiving) :
    session.horizon = session.received.length := by
  simp [Session.horizon, receiving]

theorem Quiet.horizon_le {after : Session} (same : Quiet session after)
    (known : RequestsKnown session) : session.horizon ≤ after.horizon := by
  cases next : after.dispatcher with
  | dispatching arrival value =>
      simp [Session.horizon, next, same.dispatching arrival value next]
  | _ =>
      have horizon : after.horizon = after.received.length := by simp [Session.horizon, next]
      rw [horizon, same.received]
      exact known.horizon_le

theorem horizon_step (known : RequestsKnown session) (action : Session.Action) :
    session.horizon ≤ (session.step action).horizon ∧
      session.received.length ≤ (session.step action).received.length ∧
      ∀ arrival value, (session.step action).dispatcher = .dispatching arrival value →
        (session.step action).received.length = arrival + 1 := by
  have moves := @step_requestMoves session action
  generalize session.step action = after at moves ⊢
  have unchanged {other : Session} (received : other.received = session.received)
      (dispatcher : other.dispatcher = session.dispatcher) :
      session.horizon ≤ other.horizon ∧ session.received.length ≤ other.received.length ∧
        ∀ arrival value, other.dispatcher = .dispatching arrival value →
          other.received.length = arrival + 1 := by
    refine ⟨?_, ?_, ?_⟩
    · simp [Session.horizon, received, dispatcher]
    · rw [received]
    · rw [received, dispatcher]
      exact known.dispatchingLast
  have quiet {other : Session} (same : Quiet session other) :
      session.horizon ≤ other.horizon ∧ session.received.length ≤ other.received.length ∧
        ∀ arrival value, other.dispatcher = .dispatching arrival value →
          other.received.length = arrival + 1 := by
    refine ⟨same.horizon_le known, same.received ▸ le_rfl, fun arrival value next => ?_⟩
    rw [same.received]
    exact known.dispatchingLast arrival value (same.dispatching arrival value next)
  cases moves with
  | quiet same writer => exact quiet same
  | wrote message same writing writer => exact quiet same
  | received value receiving =>
      refine ⟨?_, by simp, ?_⟩
      · rw [horizon_eq_of_receiving receiving]
        exact le_rfl
      · intro arrival message next
        simp only [Dispatcher.dispatching.injEq] at next
        simp [← next.1]
  | accepted key dispatching =>
      refine ⟨?_, le_rfl, by simp⟩
      exact known.horizon_le
  | asked input => exact unchanged rfl rfl
  | taken found => exact unchanged rfl rfl
  | answered step found =>
      rcases answerRequest_same _ _ _ _ _ with ⟨_, received, _, dispatcher⟩
      exact unchanged received dispatcher
  | restored step found => exact unchanged rfl rfl

theorem accepted_step (action : Session.Action) :
    (session.step action).accepted = session.accepted ∨
      ∃ arrival value key, session.dispatcher = .dispatching arrival value ∧
        (session.step action).dispatcher = .receiving ∧
        (session.step action).accepted = session.accepted ++ [(key, arrival)] := by
  have moves := @step_requestMoves session action
  generalize session.step action = after at moves ⊢
  cases moves with
  | quiet same writer => exact .inl same.accepted
  | wrote message same writing writer => exact .inl same.accepted
  | accepted key dispatching => exact .inr ⟨_, _, key, dispatching, rfl, rfl⟩
  | answered step found =>
      rcases answerRequest_same _ _ _ _ _ with ⟨_, _, accepted, _⟩
      exact .inl accepted
  | _ => exact .inl rfl

theorem RequestsKnown.step {action : Session.Action} (known : RequestsKnown session)
    (untouched : RequestsUntouched session action) : RequestsKnown (session.step action) := by
  rcases horizon_step known action with ⟨horizonLe, receivedLe, dispatchingLast⟩
  have arrivalBefore {arrival : ℕ} {value : Value}
      (dispatching : session.dispatcher = .dispatching arrival value)
      (receiving : (session.step action).dispatcher = .receiving) :
      arrival < (session.step action).horizon := by
    rw [horizon_eq_of_receiving receiving]
    have last := known.dispatchingLast arrival value dispatching
    omega
  refine ⟨?_, ?_, ?_, dispatchingLast⟩
  · rcases places_step untouched with fewer | ⟨arrival, value, dispatching, receiving, more⟩
    · exact Multiset.nodup_of_le fewer known.distinct
    · apply Multiset.nodup_of_le more
      rw [Multiset.nodup_cons]
      refine ⟨fun known_arrival => ?_, known.distinct⟩
      have before := known.placesBefore arrival known_arrival
      simp [Session.horizon, dispatching] at before
  · intro other otherMem
    rcases places_step untouched with fewer | ⟨arrival, value, dispatching, receiving, more⟩
    · exact (known.placesBefore other (Multiset.mem_of_le fewer otherMem)).trans_le horizonLe
    · rcases Multiset.mem_cons.mp (Multiset.mem_of_le more otherMem) with rfl | otherMem
      · exact arrivalBefore dispatching receiving
      · exact (known.placesBefore other otherMem).trans_le horizonLe
  · intro entry entryMem
    rcases accepted_step action with same | ⟨arrival, value, key, dispatching, receiving, more⟩
    · rw [same] at entryMem
      exact (known.acceptedBefore entry entryMem).trans_le horizonLe
    · rw [more, List.mem_append, List.mem_singleton] at entryMem
      rcases entryMem with entryMem | rfl
      · exact (known.acceptedBefore entry entryMem).trans_le horizonLe
      · exact arrivalBefore dispatching receiving

/-! ## Pending requests stand -/

theorem stands_of_same {after : Session} (received : after.received = session.received)
    (accepted : after.accepted = session.accepted) {key : String} {request : Request}
    (stands : session.Stands key request) : after.Stands key request := by
  simpa only [Session.Stands, Session.CancelledSince, Session.ReplacedSince, received, accepted]
    using stands

theorem stands_of_received {value : Value} {after : Session} {key : String} {request : Request}
    (received : after.received = session.received ++ [value])
    (accepted : after.accepted = session.accepted) (otherKey : cancelledKey value ≠ some key)
    (stands : session.Stands key request) : after.Stands key request := by
  refine ⟨?_, ?_⟩
  · rintro ⟨n, message, later, messageAt, cancels⟩
    rw [received, List.getElem?_append] at messageAt
    split at messageAt
    case isTrue inRange => exact stands.1 ⟨n, message, later, messageAt, cancels⟩
    case isFalse =>
        rw [List.getElem?_singleton] at messageAt
        split at messageAt
        case isTrue =>
            rw [Option.some.injEq] at messageAt
            exact otherKey (messageAt ▸ cancels)
        case isFalse => exact absurd messageAt (by simp)
  · rintro ⟨newer, later, newerMem⟩
    exact stands.2 ⟨newer, later, accepted ▸ newerMem⟩

theorem stands_of_accepted (newKey : String) (arrival : ℕ) {key : String} {request : Request}
    {after : Session}
    (received : after.received = session.received)
    (accepted : after.accepted = session.accepted ++ [(newKey, arrival)])
    (different : key ≠ newKey) (stands : session.Stands key request) :
    after.Stands key request := by
  refine ⟨?_, ?_⟩
  · rintro ⟨n, message, later, messageAt, cancels⟩
    exact stands.1 ⟨n, message, later, received ▸ messageAt, cancels⟩
  · rintro ⟨newer, later, newerMem⟩
    rw [accepted, List.mem_append, List.mem_singleton] at newerMem
    rcases newerMem with newerMem | same
    · exact stands.2 ⟨newer, later, newerMem⟩
    · exact different (Prod.mk.inj same).1

theorem stands_of_dispatching (known : RequestsKnown session) {arrival : ℕ} {value : Value}
    (dispatching : session.dispatcher = .dispatching arrival value) {key : String}
    {after : Session} (received : after.received = session.received)
    (accepted : after.accepted = session.accepted ++ [(key, arrival)]) :
    after.Stands key ⟨arrival, value⟩ := by
  have last := known.dispatchingLast arrival value dispatching
  refine ⟨?_, ?_⟩
  · rintro ⟨n, message, later, messageAt, cancels⟩
    rw [received] at messageAt
    rcases List.getElem?_eq_some_iff.mp messageAt with ⟨inRange, _⟩
    simp only at later
    omega
  · rintro ⟨newer, later, newerMem⟩
    rw [accepted, List.mem_append, List.mem_singleton] at newerMem
    rcases newerMem with newerMem | same
    · have before := known.acceptedBefore _ newerMem
      simp only [Session.horizon, dispatching] at before later
      omega
    · rw [(Prod.mk.inj same).2] at later
      exact absurd later (lt_irrefl _)

def PendingStands (session : Session) : Prop :=
  ∀ key request, session.serverRequests.read key = some request → session.Stands key request

theorem PendingStands.of_same {after : Session} (standing : PendingStands session)
    (requests : ∀ key request, after.serverRequests.read key = some request →
      session.serverRequests.read key = some request)
    (received : after.received = session.received)
    (accepted : after.accepted = session.accepted) : PendingStands after :=
  fun key request found =>
    stands_of_same received accepted (standing key request (requests key request found))

theorem read_of_read_remove {store : Store String Request} {removed key : String}
    {request : Request} (found : (store.remove removed).read key = some request) :
    key ≠ removed ∧ store.read key = some request := by
  have entryMem := Store.mem_remove.mp (Store.read_eq_some_iff.mp found)
  exact ⟨entryMem.2, Store.read_eq_some_iff.mpr entryMem.1⟩

theorem pendingStands_step {action : Session.Action} (known : RequestsKnown session)
    (untouched : RequestsUntouched session action) (standing : PendingStands session) :
    PendingStands (session.step action) := by
  have moves := @step_requestMoves session action
  generalize session.step action = after at moves ⊢
  cases moves with
  | quiet same writer =>
      exact standing.of_same (fun _ _ found => same.serverRequests ▸ found) same.received
        same.accepted
  | wrote message same writing writer =>
      exact standing.of_same (fun _ _ found => same.serverRequests ▸ found) same.received
        same.accepted
  | received value receiving =>
      intro key request found
      cases cancels : cancelledKey value with
      | none =>
          simp only [cancels] at found
          exact stands_of_received rfl rfl (by simp [cancels]) (standing key request found)
      | some removed =>
          simp only [cancels] at found
          rcases read_of_read_remove found with ⟨different, before⟩
          refine stands_of_received rfl rfl ?_ (standing key request before)
          rw [cancels, ne_eq, Option.some.injEq]
          exact Ne.symm different
  | @accepted arrival value newKey dispatching =>
      intro key request found
      by_cases same : key = newKey
      · subst same
        rw [Store.read_write_self, Option.some.injEq] at found
        subst found
        exact stands_of_dispatching known dispatching rfl rfl
      · rw [Store.read_write_of_ne same] at found
        refine stands_of_accepted newKey arrival ?_ ?_ same (standing key request found) <;> rfl
  | asked input => exact standing.of_same (fun _ _ found => found) rfl rfl
  | taken found =>
      exact standing.of_same (fun _ _ found => (read_of_read_remove found).2) rfl rfl
  | answered step found =>
      rcases answerRequest_same _ _ _ _ _ with ⟨requests, received, accepted, _⟩
      exact standing.of_same (fun _ _ found => requests ▸ found) received accepted
  | @restored number input restoredKey restoredRequest error outcome step restoring =>
      intro key request found
      by_cases same : key = restoredKey
      · subst same
        rw [Store.read_write_self, Option.some.injEq] at found
        subst found
        exact stands_of_same rfl rfl
          (untouched.standing number outcome input key restoredRequest error step restoring)
      · rw [Store.read_write_of_ne same] at found
        exact stands_of_same rfl rfl (standing key request found)

/-! ## Errors restore -/

theorem responds_setRespond {number other : ℕ} {phase : RespondPhase} :
    (session.setRespond number phase).responds[other]? =
      if number = other then session.responds[other]?.map fun respond => { respond with phase }
      else session.responds[other]? := by
  simp only [Session.setRespond, List.getElem?_modify]
  split <;> simp

theorem eq_of_setRespond {number other : ℕ} {respond : Respond} {phase : RespondPhase}
    {before : Respond} (found : session.responds[number]? = some before)
    (after : (session.setRespond number phase).responds[other]? = some respond)
    (changed : session.responds[other]? ≠ some respond) :
    respond = { before with phase } := by
  rw [responds_setRespond] at after
  split at after
  case isTrue same =>
      subst same
      rw [found, Option.map_some, Option.some.injEq] at after
      exact after.symm
  case isFalse => exact absurd after changed

theorem errorsRestore_step {action : Session.Action}
    (untouched : RequestsUntouched session action) : ErrorsRestore session action := by
  intro number input taken error
  have moves := @step_requestMoves session action
  generalize session.step action = after at moves ⊢
  intro returned before
  cases moves with
  | quiet same writer => exact absurd (same.responds ▸ returned) before
  | wrote message same writing writer => exact absurd (same.responds ▸ returned) before
  | received value receiving => exact absurd returned before
  | accepted key dispatching => exact absurd returned before
  | asked newInput =>
      simp only [Session.respond, List.getElem?_append] at returned
      split at returned
      case isTrue => exact absurd returned before
      case isFalse =>
          rw [List.getElem?_singleton] at returned
          split at returned
          case isTrue =>
              rw [Option.some.injEq, Respond.mk.injEq] at returned
              cases key : session.respondKey newInput with
              | ok key => simp [key] at returned
              | error failure =>
                  simp only [key, RespondPhase.returned.injEq] at returned
                  rw [← returned.2.1]
                  rfl
          case isFalse => exact absurd returned (by simp)
  | @taken number' input' key found =>
      have isNew := eq_of_setRespond found returned before
      cases pending : session.serverRequests.read key with
      | none =>
          simp only [pending, Respond.mk.injEq, RespondPhase.returned.injEq] at isNew
          rw [isNew.2.1]
          exact Store.remove_of_read_eq_none pending
      | some request => simp [pending] at isNew
  | @answered number' input' key request outcome step found =>
      have small := untouched.withinLimit number' outcome input' key request step found
      simp only [Session.answerRequest, if_neg (Nat.not_lt.mpr small)] at returned
      have isNew := @eq_of_setRespond (session.write _ _ _) _ _ _ _ _ found returned before
      cases outcome <;> simp [WriteOutcome.result] at isNew
  | @restored number' input' key request failure outcome step found =>
      have isNew := eq_of_setRespond found returned before
      simp only [Respond.mk.injEq, RespondPhase.returned.injEq] at isNew
      rw [isNew.2.1]
      exact fun _ => Store.read_write_self _ _ _

/-! ## Runs -/

theorem requestsKnown_opening (sessionKey : String) (roots : List String) (request : Value) :
    RequestsKnown (Session.opening sessionKey roots request) ∧
      PendingStands (Session.opening sessionKey roots request) := by
  refine ⟨⟨?_, ?_, ?_, ?_⟩, ?_⟩
  · exact Multiset.nodup_zero
  · intro arrival arrivalMem
    exact absurd arrivalMem (Multiset.notMem_zero arrival)
  · simp [Session.opening]
  · simp [Session.opening]
  · intro key pending found
    simp [Session.opening, Store.read, Store.empty] at found

/-- In every run whose steps leave the requests untouched no request is answered twice, none is
pending that was cancelled or replaced, and responses that fail give back what they took. -/
theorem serverRequests_safe (sessionKey : String) (roots : List String) (request : Value)
    (actions : List Session.Action)
    (untouched : EveryStep Session.step (Session.opening sessionKey roots request) actions
      RequestsUntouched) :
    EveryState Session.step (Session.opening sessionKey roots request) actions RequestsSafe ∧
      EveryStep Session.step (Session.opening sessionKey roots request) actions
        ErrorsRestore := by
  have always : EveryState Session.step (Session.opening sessionKey roots request) actions
      fun session => RequestsKnown session ∧ PendingStands session := by
    refine EveryState.of_everyStep (requestsKnown_opening sessionKey roots request) ?_ untouched
    intro session action holds allowed
    exact ⟨holds.1.step allowed, pendingStands_step holds.1 allowed holds.2⟩
  refine ⟨fun n inRange => ?_, fun n inRange => errorsRestore_step (untouched n inRange)⟩
  rcases always n inRange with ⟨known, standing⟩
  refine ⟨?_, standing⟩
  apply Multiset.coe_nodup.mp
  exact Multiset.nodup_of_le (Multiset.le_add_left _ _) known.distinct

/-! ## Where it fails -/

def elicitation : Value :=
  .object [("id", .integer 7), ("jsonrpc", .string "2.0"),
    ("method", .string "elicitation/create"), ("params", .object [])]

def cancellation : Value :=
  .object [("jsonrpc", .string "2.0"), ("method", .string "notifications/cancelled"),
    ("params", .object [("requestId", .integer 7)])]

def approval : ServerResponseInput where
  sessionKey := "files"
  serverRequestId := .integer 7
  result := some (.object [("action", .string "accept")])
  error := none

def opened : Session := .opening "files" [] (clientRequest 1 "initialize" (.object []))

/-- The request is accepted and a response takes it. -/
def approving : List Session.Action :=
  [.receive (.message elicitation), .dispatch .written, .respond approval,
    .advanceRespond 0 .written]

/-- The server cancels the request before the write of the response fails. -/
def cancelledWhileWriting : List Session.Action :=
  approving ++ [.receive (.message cancellation), .dispatch .written,
    .advanceRespond 0 (.failed "Broken pipe" 0 true), .advanceRespond 0 .written]

theorem cancelledWhileWriting_resurrects :
    ¬ EveryState Session.step opened cancelledWhileWriting RequestsSafe := by
  intro always
  have last := (always 8 (by decide)).pendingStands "7" ⟨0, elicitation⟩ rfl
  revert last
  decide

/-- A failed write gives the request back for another response, which is written. -/
theorem serverRequests_safe_retried :
    EveryState Session.step opened (approving ++ [.advanceRespond 0 (.failed "Busy" 0 false),
      .advanceRespond 0 .written, .respond approval, .advanceRespond 1 .written,
      .advanceRespond 1 .written]) RequestsSafe :=
  (serverRequests_safe "files" [] (clientRequest 1 "initialize" (.object [])) _
    (by unfold EveryStep; decide)).1

end Brunomnia.McpStdio
