import Brunomnia.Runner.Run

/-!
# Moves of a run

What a run does to its state, one move at a time. The executors are called only while
nothing has stopped the run, and every call describes the scopes at that time.
-/

namespace Brunomnia.Runner

open Codegen (Text trimText)

/-- Nothing has stopped the run. -/
structure Unstopped (state : RunnerState) : Prop where
  notCancelled : state.cancelled = false
  notBailed : state.bailed = false
  noFlowError : state.flowError = none

/-- A script gets the variables of the scopes. -/
structure IsScriptOf (plan : RunnerPlan) (scopes : RunnerScopes) (call : ScriptCall) : Prop where
  globals : call.globalVariables = scopes.globals
  options : ∃ folders testNamePattern testCategory execution location,
    call.options = scriptOptions plan scopes (folderStates scopes folders) testNamePattern
      testCategory execution location

/-- The item of a visit is planned, and its data row is that of its iteration. -/
structure IsPlanned (plan : RunnerPlan) (visiting : Visiting) : Prop where
  request : plan.requests[visiting.key.index]? = some visiting.original
  iterationData : visiting.iterationData = dataRow plan (visiting.key.iteration - 1)

/-- A request is sent with the variables that its script leaves. -/
def IsSent (plan : RunnerPlan) (callbacks : RunnerCallbacks) (scopes : RunnerScopes)
    (call : RequestCall) : Prop :=
  ∃ original number scriptCall result,
    plan.requests[call.key.index]? = some original ∧
    callbacks.executeScript number scriptCall = .ok result ∧
    scriptCall.localVariables = noVariables ∧
    call.requestVariables = requestVariablesOf plan scopes
      (folderAncestors plan.collection original.folderId)
      (dataRow plan (call.key.iteration - 1)) (result.localVariables.getD noVariables)

/-- The question whether to interrupt is answered with a cancellation. -/
def cancelsAt (callbacks : RunnerCallbacks) (key : ItemKey) (clock : ℕ) : Bool :=
  !callbacks.shouldSkip clock key &&
    (callbacks.shouldCancel (clock + 1) || callbacks.aborted (clock + 1))

/-- A cancellation for which an error was thrown, and that is repeated when the error is caught. -/
def Event.stands (callbacks : RunnerCallbacks) : Event → Bool
  | .cancelThrown key clock => cancelsAt callbacks key clock
  | _ => false

/-- All cancellations for which errors were thrown have been taken back. -/
def Calm (callbacks : RunnerCallbacks) (events : List Event) : Prop :=
  ∀ event ∈ events, event.stands callbacks = false

inductive VisitMove (plan : RunnerPlan) (callbacks : RunnerCallbacks) :
    RunnerState → RunnerState → Prop where
  | tick (state : RunnerState) : VisitMove plan callbacks state state.tick
  | script (state : RunnerState) (call : ScriptCall) (unstopped : Unstopped state)
      (isScript : IsScriptOf plan state.scopes call) (calm : Calm callbacks state.events) :
      VisitMove plan callbacks state (state.emit (.script call))
  | request (state : RunnerState) (call : RequestCall) (unstopped : Unstopped state)
      (isSent : IsSent plan callbacks state.scopes call) (calm : Calm callbacks state.events) :
      VisitMove plan callbacks state (state.emit (.request call))
  | scopes (state : RunnerState) {number : ℕ} {call : ScriptCall} {result : ScriptRunResult}
      (ran : callbacks.executeScript number call = .ok result)
      (isScript : IsScriptOf plan state.scopes call) :
      VisitMove plan callbacks state
        { state with scopes := scopesAfter plan state.scopes result }
  | update (state : RunnerState) (key : ItemKey) (status : Option ItemStatus)
      (patch : ItemPatch) : VisitMove plan callbacks state (state.updateLiveItem key status patch)
  | finish (state : RunnerState) (status : ItemStatus) (errorMessage : Text) :
      VisitMove plan callbacks state (state.finishUnfinished status errorMessage)
  | result (state : RunnerState) (result : ItemResult) :
      VisitMove plan callbacks state { state with results := state.results ++ [result] }
  | visited (state : RunnerState) (visit : Visit) :
      VisitMove plan callbacks state { state with visits := state.visits ++ [visit] }
  | thrown (state : RunnerState) (key : ItemKey) :
      VisitMove plan callbacks state (state.emit (.cancelThrown key state.clock))
  | cancel (state : RunnerState) : VisitMove plan callbacks state (state.stop .cancelled)
  | bail (state : RunnerState) : VisitMove plan callbacks state (state.stop .bailed)

abbrev VisitMoves (plan : RunnerPlan) (callbacks : RunnerCallbacks) :
    RunnerState → RunnerState → Prop :=
  Relation.ReflTransGen (VisitMove plan callbacks)

/-- The moves of a run: those of its visits, its steps, and the end of a flow that is too
long. -/
inductive RunnerMove (plan : RunnerPlan) (callbacks : RunnerCallbacks) :
    RunnerState → RunnerState → Prop where
  | visit {state after : RunnerState} (move : VisitMove plan callbacks state after) :
      RunnerMove plan callbacks state after
  | step (state : RunnerState) (iteration : ℕ) :
      RunnerMove plan callbacks state (state.emit (.step iteration))
  | exceed (state : RunnerState) (message : Text) :
      RunnerMove plan callbacks state { state.stop .flowError with flowError := some message }

abbrev RunnerMoves (plan : RunnerPlan) (callbacks : RunnerCallbacks) :
    RunnerState → RunnerState → Prop :=
  Relation.ReflTransGen (RunnerMove plan callbacks)

/-! ## What the primitive moves leave -/

section Primitive

variable (state : RunnerState)

@[simp] theorem unstopped_tick : Unstopped state.tick ↔ Unstopped state :=
  ⟨fun ⟨cancelled, bailed, flowError⟩ => ⟨cancelled, bailed, flowError⟩,
    fun ⟨cancelled, bailed, flowError⟩ => ⟨cancelled, bailed, flowError⟩⟩

@[simp] theorem unstopped_emit (event : Event) :
    Unstopped (state.emit event) ↔ Unstopped state :=
  ⟨fun ⟨cancelled, bailed, flowError⟩ => ⟨cancelled, bailed, flowError⟩,
    fun ⟨cancelled, bailed, flowError⟩ => ⟨cancelled, bailed, flowError⟩⟩

theorem updateLiveItem_cases (key : ItemKey) (status : Option ItemStatus) (patch : ItemPatch) :
    ∃ items events, state.updateLiveItem key status patch =
      { state with liveItems := items, events := events } := by
  unfold RunnerState.updateLiveItem
  split
  · exact ⟨_, _, rfl⟩
  · exact ⟨_, _, rfl⟩

theorem finishUnfinished_cases (status : ItemStatus) (errorMessage : Text) :
    ∃ items events, state.finishUnfinished status errorMessage =
      { state with liveItems := items, events := events } := by
  unfold RunnerState.finishUnfinished
  split
  · exact ⟨_, _, rfl⟩
  · exact ⟨_, _, rfl⟩

@[simp] theorem unstopped_updateLiveItem (key : ItemKey) (status : Option ItemStatus)
    (patch : ItemPatch) :
    Unstopped (state.updateLiveItem key status patch) ↔ Unstopped state := by
  obtain ⟨items, events, updated⟩ := updateLiveItem_cases state key status patch
  rw [updated]
  exact ⟨fun ⟨cancelled, bailed, flowError⟩ => ⟨cancelled, bailed, flowError⟩,
    fun ⟨cancelled, bailed, flowError⟩ => ⟨cancelled, bailed, flowError⟩⟩

@[simp] theorem updateLiveItem_scopes (key : ItemKey) (status : Option ItemStatus)
    (patch : ItemPatch) : (state.updateLiveItem key status patch).scopes = state.scopes := by
  obtain ⟨items, events, updated⟩ := updateLiveItem_cases state key status patch
  rw [updated]

@[simp] theorem updateLiveItem_results (key : ItemKey) (status : Option ItemStatus)
    (patch : ItemPatch) : (state.updateLiveItem key status patch).results = state.results := by
  obtain ⟨items, events, updated⟩ := updateLiveItem_cases state key status patch
  rw [updated]

@[simp] theorem updateLiveItem_visits (key : ItemKey) (status : Option ItemStatus)
    (patch : ItemPatch) : (state.updateLiveItem key status patch).visits = state.visits := by
  obtain ⟨items, events, updated⟩ := updateLiveItem_cases state key status patch
  rw [updated]

@[simp] theorem finishUnfinished_results (status : ItemStatus) (errorMessage : Text) :
    (state.finishUnfinished status errorMessage).results = state.results := by
  obtain ⟨items, events, finished⟩ := finishUnfinished_cases state status errorMessage
  rw [finished]

@[simp] theorem finishUnfinished_visits (status : ItemStatus) (errorMessage : Text) :
    (state.finishUnfinished status errorMessage).visits = state.visits := by
  obtain ⟨items, events, finished⟩ := finishUnfinished_cases state status errorMessage
  rw [finished]

theorem calm_append {callbacks : RunnerCallbacks} {events : List Event} {event : Event}
    (notThrown : event.stands callbacks = false) (calm : Calm callbacks events) :
    Calm callbacks (events ++ [event]) := by
  intro other otherMem
  rcases List.mem_append.mp otherMem with earlier | isNew
  · exact calm other earlier
  · rw [List.mem_singleton.mp isNew]
    exact notThrown

theorem calm_updateLiveItem (callbacks : RunnerCallbacks) (key : ItemKey)
    (status : Option ItemStatus) (patch : ItemPatch) :
    Calm callbacks (state.updateLiveItem key status patch).events ↔
      Calm callbacks state.events := by
  unfold RunnerState.updateLiveItem
  split
  · exact ⟨fun calm event eventMem => calm event (List.mem_append_left _ eventMem), calm_append rfl⟩
  · rfl

theorem calm_finishUnfinished (callbacks : RunnerCallbacks) (status : ItemStatus)
    (errorMessage : Text) :
    Calm callbacks (state.finishUnfinished status errorMessage).events ↔
      Calm callbacks state.events := by
  unfold RunnerState.finishUnfinished
  split
  · exact ⟨fun calm event eventMem => calm event (List.mem_append_left _ eventMem), calm_append rfl⟩
  · rfl

end Primitive

/-! ## Moves that stop nothing -/

/-- From a state that nothing has stopped to another one, without results and visits. -/
structure Continues (plan : RunnerPlan) (callbacks : RunnerCallbacks)
    (state after : RunnerState) : Prop where
  moves : VisitMoves plan callbacks state after
  unstopped : Unstopped after
  results : after.results = state.results
  visits : after.visits = state.visits
  calm : Calm callbacks state.events → Calm callbacks after.events

section Continues

variable {plan : RunnerPlan} {callbacks : RunnerCallbacks} {state : RunnerState}

theorem Continues.refl (unstopped : Unstopped state) : Continues plan callbacks state state :=
  ⟨Relation.ReflTransGen.refl, unstopped, rfl, rfl, id⟩

theorem Continues.trans {middle after : RunnerState}
    (first : Continues plan callbacks state middle)
    (second : Continues plan callbacks middle after) : Continues plan callbacks state after :=
  ⟨first.moves.trans second.moves, second.unstopped, second.results.trans first.results,
    second.visits.trans first.visits, second.calm ∘ first.calm⟩

theorem Continues.tick (plan : RunnerPlan) (callbacks : RunnerCallbacks)
    (unstopped : Unstopped state) :
    Continues plan callbacks state state.tick :=
  ⟨.single (.tick state), (unstopped_tick state).mpr unstopped, rfl, rfl, id⟩

theorem Continues.updateLiveItem (plan : RunnerPlan) (callbacks : RunnerCallbacks)
    (unstopped : Unstopped state) (key : ItemKey) (status : Option ItemStatus) (patch : ItemPatch) :
    Continues plan callbacks state (state.updateLiveItem key status patch) :=
  ⟨.single (.update state key status patch),
    (unstopped_updateLiveItem state key status patch).mpr unstopped,
    updateLiveItem_results state key status patch, updateLiveItem_visits state key status patch,
    (calm_updateLiveItem state callbacks key status patch).mpr⟩

theorem Continues.scopesAfter (unstopped : Unstopped state) {number : ℕ} {call : ScriptCall}
    {result : ScriptRunResult} (ran : callbacks.executeScript number call = .ok result)
    (isScript : IsScriptOf plan state.scopes call) :
    Continues plan callbacks state
      { state with scopes := Runner.scopesAfter plan state.scopes result } :=
  ⟨.single (.scopes state ran isScript),
    ⟨unstopped.notCancelled, unstopped.notBailed, unstopped.noFlowError⟩, rfl, rfl, id⟩

theorem callScript_spec (unstopped : Unstopped state) (calm : Calm callbacks state.events)
    {call : ScriptCall} (isScript : IsScriptOf plan state.scopes call) :
    ∃ after, callScript callbacks call state =
        (callbacks.executeScript state.clock call, after) ∧
      Continues plan callbacks state after ∧ after.scopes = state.scopes := by
  refine ⟨_, rfl, ?_, rfl⟩
  refine ⟨?_, (unstopped_tick _).mpr ((unstopped_emit state _).mpr unstopped), rfl, rfl,
    calm_append rfl⟩
  exact (Relation.ReflTransGen.single (.script state call unstopped isScript calm)).tail (.tick _)

theorem callRequest_spec (unstopped : Unstopped state) (calm : Calm callbacks state.events)
    {call : RequestCall}
    (isSent : IsSent plan callbacks state.scopes call) :
    ∃ after, callRequest callbacks call state =
        (callbacks.executeRequest state.clock call, after) ∧
      Continues plan callbacks state after := by
  refine ⟨_, rfl, ?_⟩
  refine ⟨?_, (unstopped_tick _).mpr ((unstopped_emit state _).mpr unstopped), rfl, rfl,
    calm_append rfl⟩
  exact (Relation.ReflTransGen.single (.request state call unstopped isSent calm)).tail (.tick _)

theorem interruption_spec (plan : RunnerPlan) (callbacks : RunnerCallbacks)
    (unstopped : Unstopped state) (key : ItemKey) :
    ∃ control after, interruption callbacks key state = (control, after) ∧
      Continues plan callbacks state after ∧ after.scopes = state.scopes := by
  have once := Continues.tick plan callbacks unstopped
  have twice := once.trans (Continues.tick plan callbacks once.unstopped)
  unfold interruption
  split
  · exact ⟨_, _, rfl, once, rfl⟩
  · split
    · exact ⟨_, _, rfl, twice, rfl⟩
    · exact ⟨_, _, rfl, twice, rfl⟩

theorem interruption_canceled {key : ItemKey}
    (cancels : cancelsAt callbacks key state.clock = true) :
    (interruption callbacks key state).1 = some .canceled := by
  unfold cancelsAt at cancels
  rw [Bool.and_eq_true, Bool.not_eq_true'] at cancels
  unfold interruption
  rw [if_neg (Bool.eq_false_iff.mp cancels.1), if_pos cancels.2]

/-- The body of an attempt leaves a calm state, or it has thrown an error for a cancellation which
is repeated when the error is caught. -/
structure Sends (plan : RunnerPlan) (callbacks : RunnerCallbacks) (key : ItemKey)
    (state : RunnerState) (sent : Sent) (after : RunnerState) : Prop where
  moves : VisitMoves plan callbacks state after
  unstopped : Unstopped after
  results : after.results = state.results
  visits : after.visits = state.visits
  calm : Calm callbacks after.events ∨
    (∃ message, sent.ending = .failed message) ∧ cancelsAt callbacks key after.clock = true

theorem Continues.sends {after : RunnerState} (continues : Continues plan callbacks state after)
    (calm : Calm callbacks state.events) (key : ItemKey) (sent : Sent) :
    Sends plan callbacks key state sent after :=
  ⟨continues.moves, continues.unstopped, continues.results, continues.visits,
    Or.inl (continues.calm calm)⟩

theorem Continues.thenSends {key : ItemKey} {sent : Sent} {middle after : RunnerState}
    (first : Continues plan callbacks state middle)
    (second : Sends plan callbacks key middle sent after) :
    Sends plan callbacks key state sent after :=
  ⟨first.moves.trans second.moves, second.unstopped, second.results.trans first.results,
    second.visits.trans first.visits, second.calm⟩

theorem Continues.throws {middle : RunnerState} (continues : Continues plan callbacks state middle)
    (calm : Calm callbacks state.events) (key : ItemKey) (control : Control) {sent : Sent}
    (failed : ∃ message, sent.ending = .failed message) :
    Sends plan callbacks key state sent (logThrown key control middle) := by
  cases control with
  | skipped => exact continues.sends calm key sent
  | canceled =>
      refine ⟨continues.moves.tail (.thrown middle key),
        (unstopped_emit middle _).mpr continues.unstopped, continues.results, continues.visits, ?_⟩
      cases stands : cancelsAt callbacks key middle.clock with
      | false => exact Or.inl (calm_append stands (continues.calm calm))
      | true => exact Or.inr ⟨failed, stands⟩

/-- The script after a response. -/
theorem sends_afterResponse (unstopped : Unstopped state) (calm : Calm callbacks state.events)
    (visiting : Visiting) (configured : ConfiguredRequest) (preRequest : ScriptRunResult)
    (response : HttpResponse) :
    Sends plan callbacks visiting.key state
      (afterResponse plan callbacks visiting configured preRequest response state).1
      (afterResponse plan callbacks visiting configured preRequest response state).2 := by
  unfold Runner.afterResponse
  dsimp only
  generalize callEq : ScriptCall.mk _ _ _ _ _ _ _ = call
  have isScript : IsScriptOf plan state.scopes call := by
    rw [← callEq]
    exact ⟨rfl, _, _, _, _, _, rfl⟩
  obtain ⟨after, calledEq, called, scopes⟩ := callScript_spec unstopped calm isScript
  rw [calledEq]
  cases ran : callbacks.executeScript state.clock call with
  | error message => exact called.sends calm _ _
  | ok result =>
      obtain ⟨control, later, askedEq, asked, laterScopes⟩ :=
        interruption_spec plan callbacks called.unstopped visiting.key
      dsimp only
      rw [askedEq]
      cases control with
      | some control => exact (called.trans asked).throws calm _ control ⟨_, rfl⟩
      | none =>
          refine ((called.trans asked).trans
            (Continues.scopesAfter asked.unstopped ran ?_)).sends calm _ _
          rw [laterScopes, scopes]
          exact isScript

/-- The request of a visit, and the script after it. -/
theorem sends_sendRequest (unstopped : Unstopped state) (calm : Calm callbacks state.events)
    {visiting : Visiting} (planned : IsPlanned plan visiting) (attempt : ℕ) {number : ℕ}
    {scriptCall : ScriptCall} {preRequest : ScriptRunResult}
    (ran : callbacks.executeScript number scriptCall = .ok preRequest)
    (noLocals : scriptCall.localVariables = noVariables) :
    Sends plan callbacks visiting.key state
      (sendRequest plan callbacks visiting
        (applyCollectionConfiguration plan.collection visiting.original plan.environment) attempt
        preRequest state).1
      (sendRequest plan callbacks visiting
        (applyCollectionConfiguration plan.collection visiting.original plan.environment) attempt
        preRequest state).2 := by
  unfold Runner.sendRequest
  dsimp only
  have shown := Continues.updateLiveItem plan callbacks unstopped visiting.key none
    { requestName := some preRequest.request.name }
  split
  · exact shown.sends calm _ _
  · generalize callEq : RequestCall.mk _ _ _ _ = call
    have isSent : IsSent plan callbacks (state.updateLiveItem visiting.key none
        { requestName := some preRequest.request.name }).scopes call := by
      rw [updateLiveItem_scopes, ← callEq]
      refine ⟨visiting.original, number, scriptCall, preRequest, planned.request, ran, noLocals, ?_⟩
      rw [← planned.iterationData]
      rfl
    obtain ⟨after, calledEq, called⟩ := callRequest_spec shown.unstopped (shown.calm calm) isSent
    have sent := shown.trans called
    rw [calledEq]
    cases callbacks.executeRequest _ call with
    | error message => exact sent.sends calm _ _
    | ok response =>
        obtain ⟨control, later, askedEq, asked, _⟩ :=
          interruption_spec plan callbacks called.unstopped visiting.key
        have answered := sent.trans asked
        dsimp only
        rw [askedEq]
        cases control with
        | some control => exact answered.throws calm _ control ⟨_, rfl⟩
        | none =>
            exact answered.thenSends (sends_afterResponse answered.unstopped (answered.calm calm)
              visiting _ preRequest response)

/-- The body of an attempt. -/
theorem sends_runBody (unstopped : Unstopped state) (calm : Calm callbacks state.events)
    {visiting : Visiting} (planned : IsPlanned plan visiting) (attempt : ℕ) (next : Text) :
    Sends plan callbacks visiting.key state
      (runBody plan callbacks visiting
        (applyCollectionConfiguration plan.collection visiting.original plan.environment) attempt
        next state).1
      (runBody plan callbacks visiting
        (applyCollectionConfiguration plan.collection visiting.original plan.environment) attempt
        next state).2 := by
  unfold Runner.runBody
  dsimp only
  generalize callEq : ScriptCall.mk _ _ _ _ _ _ _ = call
  have isScript : IsScriptOf plan state.scopes call := by
    rw [← callEq]
    exact ⟨rfl, _, _, _, _, _, rfl⟩
  have noLocals : call.localVariables = noVariables := by rw [← callEq]
  obtain ⟨after, calledEq, called, scopes⟩ := callScript_spec unstopped calm isScript
  rw [calledEq]
  cases ran : callbacks.executeScript state.clock call with
  | error message => exact called.sends calm _ _
  | ok preRequest =>
      obtain ⟨control, later, askedEq, asked, laterScopes⟩ :=
        interruption_spec plan callbacks called.unstopped visiting.key
      dsimp only
      rw [askedEq]
      cases control with
      | some control => exact (called.trans asked).throws calm _ control ⟨_, rfl⟩
      | none =>
          have isScriptLater : IsScriptOf plan later.scopes call := by
            rw [laterScopes, scopes]
            exact isScript
          have carried := (called.trans asked).trans
            (Continues.scopesAfter asked.unstopped ran isScriptLater)
          exact carried.thenSends
            (sends_sendRequest carried.unstopped (carried.calm calm) planned attempt ran noLocals)

end Continues

end Brunomnia.Runner
