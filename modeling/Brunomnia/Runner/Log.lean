import Brunomnia.Runner.Visits

/-!
# The log of a run

What the log of a run says: nothing is called after the run has stopped, and the items that
are shown keep their finished statuses.
-/

namespace Brunomnia.Runner

open Codegen (Text)

def Event.isCall : Event → Bool
  | .script _ => true
  | .request _ => true
  | _ => false

/-- An error is thrown for a cancellation. -/
def Event.isThrown : Event → Bool
  | .cancelThrown _ _ => true
  | _ => false

/-- The run is cancelled, or throws an error because it is to be. -/
def Event.cancels : Event → Bool
  | .cancelThrown _ _ => true
  | .stopped .cancelled => true
  | _ => false

def Event.isStepOf (iteration : ℕ) : Event → Bool
  | .step other => other = iteration
  | _ => false

/-- The items as they were published, one list after the other. -/
def snapshots (events : List Event) : List (List LiveItem) :=
  events.filterMap fun event =>
    match event with
    | .published items => some items
    | _ => none

/-- No executor is called once something has stopped the run. -/
def QuietAfterStop (events : List Event) : Prop :=
  ∀ before reason later, events = before ++ .stopped reason :: later →
    ∀ event ∈ later, event.isCall = false

theorem QuietAfterStop.append {events : List Event} (quiet : QuietAfterStop events)
    {event : Event} (noStop : event.isCall = true → ∀ reason, .stopped reason ∉ events) :
    QuietAfterStop (events ++ [event]) := by
  intro before reason later eventsEq
  rcases List.eq_nil_or_concat later with rfl | ⟨rest, last, rfl⟩
  · exact fun _ isLater => absurd isLater List.not_mem_nil
  · have parts : events ++ [event] = (before ++ .stopped reason :: rest) ++ [last] := by
      rw [eventsEq]
      simp
    obtain ⟨eventsEq, lastEq⟩ := List.append_inj' parts rfl
    rw [List.singleton_inj] at lastEq
    intro other otherMem
    rw [List.concat_eq_append] at otherMem
    rcases List.mem_append.mp otherMem with earlier | isLast
    · exact quiet before reason rest eventsEq other earlier
    · rw [List.mem_singleton] at isLast
      rw [isLast, ← lastEq]
      by_contra isCall
      rw [Bool.not_eq_false] at isCall
      exact noStop isCall reason (by simp [eventsEq])

/-- What the log of a run says about its state. -/
structure IsLogged (state : RunnerState) : Prop where
  cancelled : .stopped .cancelled ∈ state.events ↔ state.cancelled = true
  bailed : .stopped .bailed ∈ state.events ↔ state.bailed = true
  flowError : .stopped .flowError ∈ state.events ↔ state.flowError ≠ none
  quiet : QuietAfterStop state.events
  shown : (snapshots state.events ++ [state.liveItems]).Pairwise Keeps

theorem IsLogged.noStop {state : RunnerState} (logged : IsLogged state)
    (unstopped : Unstopped state) (reason : Stop) : .stopped reason ∉ state.events := by
  cases reason with
  | cancelled =>
      rw [logged.cancelled, unstopped.notCancelled]
      simp
  | bailed =>
      rw [logged.bailed, unstopped.notBailed]
      simp
  | flowError =>
      rw [logged.flowError, unstopped.noFlowError]
      simp

theorem IsLogged.emit {state : RunnerState} (logged : IsLogged state) {event : Event}
    (noStop : ∀ reason, event ≠ .stopped reason) (noShow : ∀ items, event ≠ .published items)
    (allowed : event.isCall = true → Unstopped state) : IsLogged (state.emit event) := by
  have stops : ∀ reason, .stopped reason ∈ (state.emit event).events ↔
      .stopped reason ∈ state.events := by
    intro reason
    change _ ∈ state.events ++ [event] ↔ _
    rw [List.mem_append, List.mem_singleton]
    constructor
    · rintro (earlier | isEvent)
      · exact earlier
      · exact absurd isEvent.symm (noStop reason)
    · exact Or.inl
  have sameShown : snapshots (state.emit event).events = snapshots state.events := by
    change snapshots (state.events ++ [event]) = _
    unfold snapshots
    rw [List.filterMap_append]
    cases event with
    | published items => exact absurd rfl (noShow items)
    | _ => simp
  refine ⟨(stops _).trans logged.cancelled, (stops _).trans logged.bailed,
    (stops _).trans logged.flowError, ?_, ?_⟩
  · exact logged.quiet.append fun isCall => logged.noStop (allowed isCall)
  · rw [sameShown]
    exact logged.shown

/-- Items that are kept are shown. -/
theorem IsLogged.show {state : RunnerState} (logged : IsLogged state) {items : List LiveItem}
    (keeps : Keeps state.liveItems items) :
    IsLogged { state with
      liveItems := items
      events := state.events ++ [.published items] } := by
  have stops : ∀ reason, .stopped reason ∈ state.events ++ [.published items] ↔
      .stopped reason ∈ state.events := by
    intro reason
    simp
  have allKept : ∀ earlier ∈ snapshots state.events ++ [state.liveItems], Keeps earlier items := by
    intro earlier earlierMem
    rcases List.mem_append.mp earlierMem with isShown | isNow
    · exact ((List.pairwise_append.mp logged.shown).2.2 earlier isShown _ (by simp)).trans keeps
    · rw [List.mem_singleton] at isNow
      rw [isNow]
      exact keeps
  refine ⟨(stops _).trans logged.cancelled, (stops _).trans logged.bailed,
    (stops _).trans logged.flowError, ?_, ?_⟩
  · exact logged.quiet.append fun isCall => by cases isCall
  · have showsEq : snapshots (state.events ++ [.published items]) =
        snapshots state.events ++ [items] := by
      simp [snapshots]
    dsimp only
    rw [showsEq, List.append_assoc]
    have before := (List.pairwise_append.mp logged.shown).1
    rw [List.pairwise_append]
    refine ⟨before, by simpa using Keeps.refl items, ?_⟩
    intro earlier isShown later laterMem
    obtain rfl : later = items := by simpa using laterMem
    exact allKept earlier (List.mem_append_left _ isShown)

theorem IsLogged.stop {state : RunnerState} (logged : IsLogged state) (reason : Stop)
    {after : RunnerState} (events : after.events = state.events ++ [.stopped reason])
    (liveItems : after.liveItems = state.liveItems)
    (cancelled : after.cancelled = (state.cancelled || decide (reason = .cancelled)))
    (bailed : after.bailed = (state.bailed || decide (reason = .bailed)))
    (flowError : after.flowError ≠ none ↔ state.flowError ≠ none ∨ reason = .flowError) :
    IsLogged after := by
  refine ⟨?_, ?_, ?_, ?_, ?_⟩
  · rw [events, cancelled, List.mem_append, logged.cancelled]
    cases reason <;> simp
  · rw [events, bailed, List.mem_append, logged.bailed]
    cases reason <;> simp
  · rw [events, flowError, List.mem_append, logged.flowError]
    cases reason <;> simp
  · rw [events]
    exact logged.quiet.append fun isCall => by cases isCall
  · have same : snapshots after.events = snapshots state.events := by
      rw [events]
      simp [snapshots]
    rw [same, liveItems]
    exact logged.shown

theorem IsLogged.visitMove {plan : RunnerPlan} {callbacks : RunnerCallbacks}
    {state after : RunnerState} (logged : IsLogged state)
    (move : VisitMove plan callbacks state after) : IsLogged after := by
  cases move with
  | tick => exact ⟨logged.cancelled, logged.bailed, logged.flowError, logged.quiet, logged.shown⟩
  | script call unstopped => exact logged.emit (by simp) (by simp) fun _ => unstopped
  | request call unstopped => exact logged.emit (by simp) (by simp) fun _ => unstopped
  | thrown key => exact logged.emit (by simp) (by simp) fun isCall => by cases isCall
  | scopes => exact ⟨logged.cancelled, logged.bailed, logged.flowError, logged.quiet, logged.shown⟩
  | update key status patch =>
      have keeps := state.keeps_updateLiveItem key status patch
      unfold RunnerState.updateLiveItem at *
      split at keeps
      case isTrue present =>
        rw [if_pos present]
        exact logged.show keeps
      case isFalse missing =>
        rw [if_neg missing]
        exact logged
  | finish status errorMessage =>
      have keeps := state.keeps_finishUnfinished status errorMessage
      unfold RunnerState.finishUnfinished at *
      split at keeps
      case isTrue unfinished =>
        rw [if_pos unfinished]
        exact logged.show keeps
      case isFalse finished =>
        rw [if_neg finished]
        exact logged
  | result => exact ⟨logged.cancelled, logged.bailed, logged.flowError, logged.quiet, logged.shown⟩
  | visited => exact ⟨logged.cancelled, logged.bailed, logged.flowError, logged.quiet, logged.shown⟩
  | cancel =>
      exact logged.stop .cancelled rfl rfl (by simp [RunnerState.stop, RunnerState.emit])
        (by simp [RunnerState.stop, RunnerState.emit])
        (by simp [RunnerState.stop, RunnerState.emit])
  | bail =>
      exact logged.stop .bailed rfl rfl (by simp [RunnerState.stop, RunnerState.emit])
        (by simp [RunnerState.stop, RunnerState.emit])
        (by simp [RunnerState.stop, RunnerState.emit])

theorem IsLogged.runnerMoves {plan : RunnerPlan} {callbacks : RunnerCallbacks}
    {state after : RunnerState} (logged : IsLogged state)
    (moves : RunnerMoves plan callbacks state after) : IsLogged after := by
  induction moves with
  | refl => exact logged
  | tail _ move ih =>
      cases move with
      | visit move => exact ih.visitMove move
      | step iteration => exact ih.emit (by simp) (by simp) fun isCall => by cases isCall
      | exceed message =>
          exact ih.stop .flowError rfl rfl (by simp [RunnerState.stop, RunnerState.emit])
            (by simp [RunnerState.stop, RunnerState.emit]) (by simp)

/-! ## Calls after a cancellation -/

/-- No executor is called once a cancellation has been asked for. -/
def QuietAfterCancellation (events : List Event) : Prop :=
  events.Pairwise fun event later => event.cancels = true → later.isCall = false

instance (events : List Event) : Decidable (QuietAfterCancellation events) :=
  inferInstanceAs (Decidable (List.Pairwise _ _))

/-- When an executor is called, all cancellations for which errors were thrown have been taken
back. -/
def CallsWhenCalm (callbacks : RunnerCallbacks) (events : List Event) : Prop :=
  events.Pairwise fun event later => later.isCall = true → event.stands callbacks = false

theorem CallsWhenCalm.append {callbacks : RunnerCallbacks} {events : List Event}
    (calls : CallsWhenCalm callbacks events) {event : Event}
    (calm : event.isCall = true → Calm callbacks events) :
    CallsWhenCalm callbacks (events ++ [event]) := by
  refine List.pairwise_append.mpr ⟨calls, List.pairwise_singleton _ _, ?_⟩
  intro earlier earlierMem later laterMem isCall
  rw [List.mem_singleton.mp laterMem] at isCall
  exact calm isCall earlier earlierMem

theorem CallsWhenCalm.visitMove {plan : RunnerPlan} {callbacks : RunnerCallbacks}
    {state after : RunnerState} (calls : CallsWhenCalm callbacks state.events)
    (move : VisitMove plan callbacks state after) : CallsWhenCalm callbacks after.events := by
  cases move with
  | script call _ _ calm => exact calls.append fun _ => calm
  | request call _ _ calm => exact calls.append fun _ => calm
  | update key status patch =>
      unfold RunnerState.updateLiveItem
      split
      · exact calls.append fun isCall => by cases isCall
      · exact calls
  | finish status errorMessage =>
      unfold RunnerState.finishUnfinished
      split
      · exact calls.append fun isCall => by cases isCall
      · exact calls
  | thrown key => exact calls.append fun isCall => by cases isCall
  | cancel => exact calls.append fun isCall => by cases isCall
  | bail => exact calls.append fun isCall => by cases isCall
  | tick => exact calls
  | scopes => exact calls
  | result => exact calls
  | visited => exact calls

theorem CallsWhenCalm.runnerMoves {plan : RunnerPlan} {callbacks : RunnerCallbacks}
    {state after : RunnerState} (calls : CallsWhenCalm callbacks state.events)
    (moves : RunnerMoves plan callbacks state after) : CallsWhenCalm callbacks after.events := by
  induction moves with
  | refl => exact calls
  | tail _ move ih =>
      cases move with
      | visit move => exact ih.visitMove move
      | step iteration => exact ih.append fun isCall => by cases isCall
      | exceed message => exact ih.append fun isCall => by cases isCall

/-- The cancellations for which errors were thrown are repeated when the errors are caught. -/
def CancellationsStand (callbacks : RunnerCallbacks) (events : List Event) : Prop :=
  ∀ event ∈ events, event.isThrown = true → event.stands callbacks = true

theorem QuietAfterStop.pairwise {events : List Event} (quiet : QuietAfterStop events) :
    events.Pairwise fun event later =>
      ∀ reason, event = .stopped reason → later.isCall = false := by
  induction events with
  | nil => exact List.Pairwise.nil
  | cons event rest ih =>
      refine List.pairwise_cons.mpr ⟨?_, ih ?_⟩
      · rintro later laterMem reason rfl
        exact quiet [] reason rest rfl later laterMem
      · rintro before reason later rfl
        exact quiet (event :: before) reason later rfl

theorem quietAfterCancellation {callbacks : RunnerCallbacks} {events : List Event}
    (quiet : QuietAfterStop events) (calls : CallsWhenCalm callbacks events)
    (stand : CancellationsStand callbacks events) : QuietAfterCancellation events := by
  refine (quiet.pairwise.and calls).imp_of_mem ?_
  rintro event later eventMem _ ⟨afterStop, whenCalm⟩ cancels
  cases event with
  | cancelThrown key clock =>
      by_contra isCall
      have takenBack : cancelsAt callbacks key clock = false :=
        whenCalm (Bool.not_eq_false _ ▸ isCall)
      have stands : cancelsAt callbacks key clock = true := stand _ eventMem rfl
      rw [stands] at takenBack
      cases takenBack
  | stopped reason => exact afterStop reason rfl
  | step | script | request | published => cases cancels

end Brunomnia.Runner
