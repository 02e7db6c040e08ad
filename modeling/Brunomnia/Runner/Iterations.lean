import Brunomnia.Runner.Log

/-!
# Iterations of a run

Every step of an iteration finishes the item it visits or stops the run, which finishes all
items. So an iteration that goes through leaves no item of its own unfinished, and a run none
at all.
-/

namespace Brunomnia.Runner

open Codegen (Text)

/-! ## Steps in the log -/

/-- The number of steps that an iteration has taken. -/
def stepsOf (iteration : ℕ) (state : RunnerState) : ℕ :=
  state.events.countP (Event.isStepOf iteration)

theorem stepsOf_visitMove {plan : RunnerPlan} {callbacks : RunnerCallbacks}
    {state after : RunnerState} (move : VisitMove plan callbacks state after) (iteration : ℕ) :
    stepsOf iteration after = stepsOf iteration state := by
  unfold stepsOf
  cases move with
  | update key status patch =>
      unfold RunnerState.updateLiveItem
      split
      · simp [RunnerState.publishLiveItems, RunnerState.emit, Event.isStepOf]
      · rfl
  | finish status errorMessage =>
      unfold RunnerState.finishUnfinished
      split
      · simp [RunnerState.publishLiveItems, RunnerState.emit, Event.isStepOf]
      · rfl
  | script call => simp [RunnerState.emit, Event.isStepOf]
  | request call => simp [RunnerState.emit, Event.isStepOf]
  | thrown key => simp [RunnerState.emit, Event.isStepOf]
  | cancel => simp [RunnerState.stop, RunnerState.emit, Event.isStepOf]
  | bail => simp [RunnerState.stop, RunnerState.emit, Event.isStepOf]
  | _ => rfl

theorem stepsOf_visitMoves {plan : RunnerPlan} {callbacks : RunnerCallbacks}
    {state after : RunnerState} (moves : VisitMoves plan callbacks state after)
    (iteration : ℕ) : stepsOf iteration after = stepsOf iteration state := by
  induction moves with
  | refl => rfl
  | tail _ move ih => rw [stepsOf_visitMove move, ih]

theorem runnerMoves_of_visitMoves {plan : RunnerPlan} {callbacks : RunnerCallbacks}
    {state after : RunnerState} (moves : VisitMoves plan callbacks state after) :
    RunnerMoves plan callbacks state after :=
  Relation.ReflTransGen.mono (fun _ _ move => RunnerMove.visit move) _ _ moves

theorem keeps_of_runnerMoves {plan : RunnerPlan} {callbacks : RunnerCallbacks}
    {state after : RunnerState} (moves : RunnerMoves plan callbacks state after) :
    Keeps state.liveItems after.liveItems := by
  induction moves with
  | refl => exact Keeps.refl _
  | tail _ move ih =>
      cases move with
      | visit move => exact ih.trans (keeps_of_visitMove move)
      | step => exact ih
      | exceed => exact ih

/-! ## Recorded visits -/

/-- The visits of a run, and its results: those of its attempts, and the error of a flow
that is too long. -/
structure IsRecorded (plan : RunnerPlan) (state : RunnerState) : Prop where
  visits : ∀ visit ∈ state.visits,
    visit.attempts.length ≤ plan.retries + 1 ∧ AttemptsInOrder visit.key 1 visit.attempts
  results : ∃ last, state.results =
      state.visits.flatMap (fun visit => resultsOf visit.attempts) ++ last ∧
    (state.flowError = none → last = []) ∧ last.length ≤ 1 ∧
    ∀ result ∈ last, result.attempt = 0 ∧ result.passed = false

theorem IsRecorded.same {plan : RunnerPlan} {state after : RunnerState}
    (recorded : IsRecorded plan state) (visits : after.visits = state.visits)
    (results : after.results = state.results) (flowError : after.flowError = state.flowError) :
    IsRecorded plan after := by
  obtain ⟨visited, last, resultsEq⟩ := recorded
  refine ⟨by rwa [visits], last, ?_⟩
  rwa [visits, results, flowError]

theorem IsRecorded.visit {plan : RunnerPlan} {callbacks : RunnerCallbacks} {key : ItemKey}
    {state after : RunnerState} {stopped : Bool} (recorded : IsRecorded plan state)
    (unstopped : Unstopped state)
    (spec : VisitSpec plan callbacks key state stopped after) : IsRecorded plan after := by
  obtain ⟨visited, last, resultsEq, noLast, _, _⟩ := recorded
  obtain ⟨attempts, visits, results, few, inOrder⟩ := spec.visit
  refine ⟨?_, [], ?_, fun _ => rfl, by simp, by simp⟩
  · rw [visits]
    intro visit visitMem
    rcases List.mem_append.mp visitMem with earlier | isNew
    · exact visited visit earlier
    · rw [List.mem_singleton] at isNew
      rw [isNew]
      exact ⟨few, inOrder⟩
  · rw [results, visits, resultsEq, noLast unstopped.noFlowError]
    simp

/-! ## The steps of an iteration -/

/-- All items of an iteration before some place are finished. -/
def FinishedBefore (plan : RunnerPlan) (iteration bound : ℕ) (state : RunnerState) : Prop :=
  ∀ index < bound, ∀ request, plan.requests[index]? = some request →
    Finished ⟨iteration + 1, index, request.id⟩ state.liveItems

/-- What steps of an iteration do. -/
structure StepsSpec (plan : RunnerPlan) (callbacks : RunnerCallbacks) (iteration stepsLeft : ℕ)
    (state : RunnerState) (stopped : Bool) (after : RunnerState) : Prop where
  moves : RunnerMoves plan callbacks state after
  recorded : IsRecorded plan after
  steps : stepsOf iteration after ≤ stepsOf iteration state + stepsLeft
  otherSteps : ∀ other, other ≠ iteration → stepsOf other after = stepsOf other state
  goesOn : stopped = false → Unstopped after ∧
    FinishedBefore plan iteration plan.requests.length after
  stops : stopped = true → AllFinished after.liveItems
  calm : stopped = false → Calm callbacks after.events

section Steps

variable {plan : RunnerPlan} {callbacks : RunnerCallbacks} {state : RunnerState}

theorem FinishedBefore.keeps {iteration bound : ℕ} {after : RunnerState}
    (finished : FinishedBefore plan iteration bound state)
    (keeps : Keeps state.liveItems after.liveItems) :
    FinishedBefore plan iteration bound after :=
  fun index inRange request isRequest => (finished index inRange request isRequest).keeps keeps

theorem FinishedBefore.succ {iteration bound : ℕ} {request : CollectionRequest}
    (finished : FinishedBefore plan iteration bound state)
    (isRequest : plan.requests[bound]? = some request)
    (last : Finished ⟨iteration + 1, bound, request.id⟩ state.liveItems) :
    FinishedBefore plan iteration (bound + 1) state := by
  intro index inRange other isOther
  rcases Nat.lt_succ_iff_lt_or_eq.mp inRange with earlier | rfl
  · exact finished index earlier other isOther
  · rw [isRequest, Option.some.injEq] at isOther
    rw [← isOther]
    exact last

/-- The end of a flow that is too long. -/
theorem exceedLimit_spec (unstopped : Unstopped state) (recorded : IsRecorded plan state)
    (iteration requestIndex : ℕ) (original : CollectionRequest) :
    StepsSpec plan callbacks iteration 0 state true
      (exceedLimit plan iteration requestIndex original state) := by
  unfold exceedLimit
  dsimp only
  generalize ("Runner request flow exceeded the ".toList ++ natText plan.flowStepLimit ++
    "-step safety limit in iteration ".toList ++ natText (iteration + 1) ++ ".".toList) = message
  generalize ItemPatch.mk _ _ _ _ _ = patch
  generalize resultEq : ItemResult.mk _ _ _ _ _ _ _ _ = result
  have exceeded : RunnerMoves plan callbacks state
      { state.stop .flowError with flowError := some message } := .single (.exceed state message)
  have ended : VisitMoves plan callbacks { state.stop .flowError with flowError := some message }
      (RunnerState.finishUnfinished
        (RunnerState.updateLiveItem
          { state.stop .flowError with
            flowError := some message
            results := state.results ++ [result] }
          ⟨iteration + 1, requestIndex, original.id⟩ (some .failed) patch)
        .skipped "Skipped after the runner flow safety limit was exceeded.".toList) :=
    ((Relation.ReflTransGen.single (.result _ result)).tail (.update _ _ _ _)).tail
      (.finish _ _ _)
  have sameSteps : ∀ other, stepsOf other
      { state.stop .flowError with flowError := some message } = stepsOf other state := by
    intro other
    simp [stepsOf, RunnerState.stop, RunnerState.emit, Event.isStepOf]
  refine ⟨exceeded.trans (runnerMoves_of_visitMoves ended), ?_, ?_, ?_, by simp, ?_, by simp⟩
  · obtain ⟨visited, last, resultsEq, noLast, _, _⟩ := recorded
    refine ⟨?_, [result], ?_, ?_, le_refl 1, ?_⟩
    · rw [finishUnfinished_visits, updateLiveItem_visits]
      exact visited
    · rw [finishUnfinished_visits, updateLiveItem_visits, finishUnfinished_results,
        updateLiveItem_results]
      change state.results ++ [result] = _
      rw [resultsEq, noLast unstopped.noFlowError]
      simp [RunnerState.stop, RunnerState.emit]
    · intro noFlowError
      rw [(finishUnfinished_flags _ _ _).1, (updateLiveItem_flags _ _ _ _).1] at noFlowError
      cases noFlowError
    · intro only onlyMem
      rw [List.mem_singleton] at onlyMem
      rw [onlyMem, ← resultEq]
      exact ⟨rfl, rfl⟩
  · rw [stepsOf_visitMoves ended, sameSteps]
    exact le_refl _
  · intro other _
    rw [stepsOf_visitMoves ended, sameSteps]
  · exact fun _ => RunnerState.finished_finishUnfinished _ rfl _

theorem StepsSpec.step {iteration stepsLeft : ℕ} {middle after : RunnerState} {stopped : Bool}
    (moves : VisitMoves plan callbacks (state.emit (.step iteration)) middle)
    (spec : StepsSpec plan callbacks iteration stepsLeft middle stopped after) :
    StepsSpec plan callbacks iteration (stepsLeft + 1) state stopped after := by
  refine ⟨?_, spec.recorded, ?_, ?_, spec.goesOn, spec.stops, spec.calm⟩
  · exact ((Relation.ReflTransGen.single (.step state iteration)).trans
      (runnerMoves_of_visitMoves moves)).trans spec.moves
  · have taken : stepsOf iteration middle = stepsOf iteration state + 1 := by
      rw [stepsOf_visitMoves moves]
      simp [stepsOf, RunnerState.emit, Event.isStepOf]
    have bound := spec.steps
    omega
  · intro other notThis
    have same : stepsOf other middle = stepsOf other state := by
      rw [stepsOf_visitMoves moves]
      simp [stepsOf, RunnerState.emit, Event.isStepOf, notThis.symm]
    rw [spec.otherSteps other notThis, same]

theorem StepsSpec.stopped (recorded : IsRecorded plan state)
    (allFinished : AllFinished state.liveItems) (iteration stepsLeft : ℕ) :
    StepsSpec plan callbacks iteration stepsLeft state true state :=
  ⟨.refl, recorded, by omega, fun _ _ => rfl, by simp, fun _ => allFinished, by simp⟩

theorem StepsSpec.atEnd {iteration requestIndex : ℕ} (unstopped : Unstopped state)
    (calm : Calm callbacks state.events) (recorded : IsRecorded plan state)
    (finished : FinishedBefore plan iteration requestIndex state)
    (noRequest : plan.requests[requestIndex]? = none) (stepsLeft : ℕ) :
    StepsSpec plan callbacks iteration stepsLeft state false state := by
  rw [List.getElem?_eq_none_iff] at noRequest
  refine ⟨.refl, recorded, by omega, fun _ _ => rfl, fun _ => ⟨unstopped, ?_⟩, by simp,
    fun _ => calm⟩
  exact fun index inRange => finished index (by omega)

/-- The steps of an iteration end with all its items finished, or they stop the run. -/
theorem runSteps_spec (iteration stepsLeft : ℕ) {requestIndex : ℕ} (next : Text)
    (unstopped : Unstopped state) (calm : Calm callbacks state.events)
    (nodup : (state.liveItems.map LiveItem.key).Nodup)
    (recorded : IsRecorded plan state)
    (finished : FinishedBefore plan iteration requestIndex state) :
    StepsSpec plan callbacks iteration stepsLeft state
      (runSteps plan callbacks iteration (dataRow plan iteration) stepsLeft requestIndex next
        state).1
      (runSteps plan callbacks iteration (dataRow plan iteration) stepsLeft requestIndex next
        state).2 := by
  induction stepsLeft generalizing requestIndex next state with
  | zero =>
      unfold runSteps
      split
      case h_1 noRequest => exact .atEnd unstopped calm recorded finished noRequest 0
      case h_2 original _ =>
          exact exceedLimit_spec unstopped recorded iteration requestIndex original
  | succ stepsLeft ih =>
      unfold runSteps
      split
      case h_1 noRequest => exact .atEnd unstopped calm recorded finished noRequest _
      case h_2 original isRequest =>
        have stepped : Unstopped (state.emit (.step iteration)) :=
          (unstopped_emit state _).mpr unstopped
        have steppedCalm : Calm callbacks (state.emit (.step iteration)).events :=
          calm_append rfl calm
        have steppedRecorded : IsRecorded plan (state.emit (.step iteration)) :=
          recorded.same rfl rfl rfl
        have steppedFinished :
            FinishedBefore plan iteration requestIndex (state.emit (.step iteration)) := finished
        -- the rest of the iteration from a later state
        have goOn : ∀ index next middle,
            VisitMoves plan callbacks (state.emit (.step iteration)) middle →
            Unstopped middle → Calm callbacks middle.events → IsRecorded plan middle →
            FinishedBefore plan iteration index middle →
            StepsSpec plan callbacks iteration (stepsLeft + 1) state
              (runSteps plan callbacks iteration (dataRow plan iteration) stepsLeft index next
                middle).1
              (runSteps plan callbacks iteration (dataRow plan iteration) stepsLeft index next
                middle).2 := by
          intro index next middle moves middleUnstopped middleCalm middleRecorded middleFinished
          have middleNodup : (middle.liveItems.map LiveItem.key).Nodup := by
            rw [(keeps_of_visitMoves moves).keys]
            exact nodup
          refine StepsSpec.step moves
            (ih next middleUnstopped middleCalm middleNodup middleRecorded middleFinished)
        have skipped : ∀ middle patch next,
            Continues plan callbacks (state.emit (.step iteration)) middle →
            StepsSpec plan callbacks iteration (stepsLeft + 1) state
              (runSteps plan callbacks iteration (dataRow plan iteration) stepsLeft
                (requestIndex + 1) next (middle.updateLiveItem
                  ⟨iteration + 1, requestIndex, original.id⟩ (some .skipped) patch)).1
              (runSteps plan callbacks iteration (dataRow plan iteration) stepsLeft
                (requestIndex + 1) next (middle.updateLiveItem
                  ⟨iteration + 1, requestIndex, original.id⟩ (some .skipped) patch)).2 := by
          intro middle patch next continues
          have shown := continues.trans
            (Continues.updateLiveItem plan callbacks
              continues.unstopped ⟨iteration + 1, requestIndex, original.id⟩ (some .skipped)
              patch)
          have before := steppedFinished.keeps (keeps_of_visitMoves shown.moves)
          refine goOn _ next _ shown.moves shown.unstopped (shown.calm steppedCalm)
            (steppedRecorded.same shown.visits shown.results ?_) (before.succ isRequest ?_)
          · rw [shown.unstopped.noFlowError, stepped.noFlowError]
          · exact RunnerState.finished_updateLiveItem middle (continues.nodup nodup) rfl patch
        have once := Continues.tick plan callbacks stepped
        have twice := once.trans (Continues.tick plan callbacks once.unstopped)
        dsimp only
        split
        case isTrue seeking => exact skipped _ _ next (Continues.refl stepped)
        case isFalse =>
          split
          case isTrue cancels =>
            have cancelled : VisitMoves plan callbacks (state.emit (.step iteration))
                (((state.emit (.step iteration)).tick.stop .cancelled).finishUnfinished .canceled
                  "Canceled by user.".toList) :=
              (once.moves.tail (.cancel _)).tail (.finish _ _ _)
            refine StepsSpec.step cancelled (StepsSpec.stopped (steppedRecorded.same ?_ ?_ ?_)
              (RunnerState.finished_finishUnfinished _ rfl _) iteration stepsLeft)
            · rw [finishUnfinished_visits]
              rfl
            · rw [finishUnfinished_results]
              rfl
            · exact (finishUnfinished_flags _ _ _).1
          case isFalse =>
            split
            case isTrue skips => exact skipped _ _ [] twice
            case isFalse =>
              have planned : IsPlanned plan
                  ⟨⟨iteration + 1, requestIndex, original.id⟩, original, dataRow plan iteration⟩ :=
                ⟨isRequest, rfl⟩
              have visit := visitItem_spec twice.unstopped (twice.calm steppedCalm)
                (twice.nodup nodup) planned
              have twiceRecorded : IsRecorded plan (state.emit (.step iteration)).tick.tick :=
                steppedRecorded.same rfl rfl rfl
              have visited := twiceRecorded.visit twice.unstopped visit
              have moves := twice.moves.trans visit.moves
              split
              case h_1 visitEq =>
                rw [visitEq] at visit visited moves
                exact StepsSpec.step moves
                  (StepsSpec.stopped visited (visit.stops rfl) iteration stepsLeft)
              case h_2 later after visitEq =>
                rw [visitEq] at visit visited moves
                obtain ⟨afterUnstopped, itemFinished⟩ := visit.goesOn rfl
                have afterCalm := visit.calm rfl
                have before := steppedFinished.keeps (keeps_of_visitMoves moves)
                split
                · exact goOn _ later _ moves afterUnstopped afterCalm visited
                    (before.succ isRequest itemFinished)
                · exact goOn _ later _ moves afterUnstopped afterCalm visited before

/-! ## The iterations of a run -/

def IsItemKey (plan : RunnerPlan) (key : ItemKey) : Prop :=
  ∃ iteration index request, plan.requests[index]? = some request ∧
    key = ⟨iteration + 1, index, request.id⟩

/-- A state between two iterations. -/
structure BeforeIterations (plan : RunnerPlan) (iterations : List ℕ) (state : RunnerState) :
    Prop where
  unstopped : Unstopped state
  nodup : (state.liveItems.map LiveItem.key).Nodup
  keys : ∀ key ∈ state.liveItems.map LiveItem.key, IsItemKey plan key
  recorded : IsRecorded plan state
  notStarted : ∀ iteration ∈ iterations, stepsOf iteration state = 0
  steps : ∀ iteration, stepsOf iteration state ≤ plan.flowStepLimit
  finished : ∀ item ∈ state.liveItems, item.key.iteration - 1 ∉ iterations →
    isRunnerItemFinished item.status = true

/-- What the iterations of a run do. -/
structure IterationsSpec (plan : RunnerPlan) (callbacks : RunnerCallbacks)
    (state after : RunnerState) : Prop where
  moves : RunnerMoves plan callbacks state after
  recorded : IsRecorded plan after
  steps : ∀ iteration, stepsOf iteration after ≤ plan.flowStepLimit
  finished : AllFinished after.liveItems

theorem BeforeIterations.steps_le {iteration : ℕ} {rest : List ℕ} {after : RunnerState}
    {stopped : Bool} (before : BeforeIterations plan (iteration :: rest) state)
    (spec : StepsSpec plan callbacks iteration plan.flowStepLimit state stopped after)
    (other : ℕ) : stepsOf other after ≤ plan.flowStepLimit := by
  by_cases isThis : other = iteration
  · have bound := spec.steps
    rw [before.notStarted iteration (by simp), Nat.zero_add] at bound
    rw [isThis]
    exact bound
  · rw [spec.otherSteps other isThis]
    exact before.steps other

theorem BeforeIterations.runSteps {iteration : ℕ} {rest : List ℕ} {after : RunnerState}
    (before : BeforeIterations plan (iteration :: rest) state)
    (notAgain : iteration ∉ rest)
    (spec : StepsSpec plan callbacks iteration plan.flowStepLimit state false after) :
    BeforeIterations plan rest after := by
  have keeps := keeps_of_runnerMoves spec.moves
  obtain ⟨unstopped, finished⟩ := spec.goesOn rfl
  have others : ∀ other ∈ rest, other ≠ iteration := by
    rintro other otherMem rfl
    exact notAgain otherMem
  refine ⟨unstopped, ?_, ?_, spec.recorded, ?_, before.steps_le spec, ?_⟩
  · rw [keeps.keys]
    exact before.nodup
  · rw [keeps.keys]
    exact before.keys
  · intro other otherMem
    rw [spec.otherSteps other (others other otherMem)]
    exact before.notStarted other (by simp [otherMem])
  · intro item itemMem notLeft
    have keyMem : item.key ∈ state.liveItems.map LiveItem.key := by
      rw [← keeps.keys]
      exact List.mem_map_of_mem itemMem
    by_cases isThis : item.key.iteration - 1 = iteration
    · obtain ⟨number, index, request, isRequest, keyEq⟩ := before.keys item.key keyMem
      rw [keyEq, Nat.add_sub_cancel] at isThis
      rw [isThis] at keyEq
      have inRange : index < plan.requests.length := (List.getElem?_eq_some_iff.mp isRequest).1
      exact finished index inRange request isRequest item itemMem keyEq
    · have finishedKey : Finished item.key state.liveItems := by
        intro other otherMem sameKey
        apply before.finished other otherMem
        rw [sameKey, List.mem_cons, not_or]
        exact ⟨isThis, notLeft⟩
      exact finishedKey.keeps keeps item itemMem rfl

theorem runIterations_spec {iterations : List ℕ} (distinct : iterations.Nodup)
    (before : BeforeIterations plan iterations state) (calm : Calm callbacks state.events) :
    IterationsSpec plan callbacks state (runIterations plan callbacks iterations state) := by
  induction iterations generalizing state with
  | nil =>
      refine ⟨.refl, before.recorded, before.steps, ?_⟩
      exact fun item itemMem => before.finished item itemMem List.not_mem_nil
  | cons iteration rest ih =>
      obtain ⟨notAgain, distinctRest⟩ := List.nodup_cons.mp distinct
      have noneBefore : FinishedBefore plan iteration 0 state :=
        fun index inRange => absurd inRange (Nat.not_lt_zero index)
      have spec := runSteps_spec iteration plan.flowStepLimit [] before.unstopped calm
        before.nodup before.recorded noneBefore
      unfold runIterations
      split
      case h_1 after stepsEq =>
        rw [stepsEq] at spec
        exact ⟨spec.moves, spec.recorded, before.steps_le spec, spec.stops rfl⟩
      case h_2 after stepsEq =>
        rw [stepsEq] at spec
        have later := ih distinctRest (before.runSteps notAgain spec) (spec.calm rfl)
        exact ⟨spec.moves.trans later.moves, later.recorded, later.steps, later.finished⟩

end Steps

end Brunomnia.Runner
