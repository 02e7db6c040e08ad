import Brunomnia.Cancellation.Registries

/-!
# Cancellations are kept

A call that is cancelled before it finishes ends as cancelled, unless it has not registered and the
set of pending cancellations is emptied for another one. A call that is not cancelled is neither
refused nor signalled.
-/

namespace Brunomnia.Cancellation

open Codegen (Text)
open Library

variable {Id : Type} [DecidableEq Id]

/-! ## What is expected -/

/-- The call is refused, or its signal is raised before it finishes. -/
def EndsCancelled (system : System Id) (id : Id) : Prop :=
  match system.calls id with
  | .waiting => False
  | .refused => True
  | .running channel => channel ∈ system.raised
  | .ended signalled => signalled = true

/-- The call goes on or has ended without a signal. -/
def Uncancelled (system : System Id) (id : Id) : Prop :=
  match system.calls id with
  | .waiting => True
  | .refused => False
  | .running channel => channel ∉ system.raised
  | .ended signalled => signalled = false

def HasEnded (system : System Id) (id : Id) : Prop :=
  ∃ signalled, system.calls id = .ended signalled

/-- A cancellation of another call that is not active finds no room. -/
def Empties (canceller : Canceller Id) (system : System Id) (id : Id) (action : Action Id) : Prop :=
  ∃ other, action = .cancel other ∧ other ≠ id ∧ canceller.takes other ∧
    system.registry.active other = none ∧ maxCancellationIds ≤ system.registry.pending.card

/-- A call that was never cancelled stays uncancelled. -/
def NeverRefused (canceller : Canceller Id) : Prop :=
  ∀ actions, IsRun canceller actions → ∀ id, ∀ n ≤ actions.length,
    Action.cancel id ∉ actions.take n →
      Uncancelled (stateAt (step canceller) System.initial actions n) id

/-- Every cancellation that comes before its call has ended makes the call end as cancelled. -/
def NeverLost (canceller : Canceller Id) : Prop :=
  ∀ actions, IsRun canceller actions → ∀ id i n, i < n → n ≤ actions.length →
    actions[i]? = some (.cancel id) →
    ¬ HasEnded (stateAt (step canceller) System.initial actions i) id →
      (stateAt (step canceller) System.initial actions n).calls id = .waiting ∨
        EndsCancelled (stateAt (step canceller) System.initial actions n) id

/-- The same, unless the pending cancellations are emptied while the call has not registered. -/
def LostIfEmptied (canceller : Canceller Id) : Prop :=
  ∀ actions, IsRun canceller actions → ∀ id i n, i < n → n ≤ actions.length →
    actions[i]? = some (.cancel id) →
    ¬ HasEnded (stateAt (step canceller) System.initial actions i) id →
      (stateAt (step canceller) System.initial actions n).calls id = .waiting ∨
        EndsCancelled (stateAt (step canceller) System.initial actions n) id ∨
        ∃ k, ∃ inRange : k < actions.length, i < k ∧ k < n ∧
          (stateAt (step canceller) System.initial actions k).calls id = .waiting ∧
          Empties canceller (stateAt (step canceller) System.initial actions k) id actions[k]

/-! ## Steps -/

/-- The registry and the calls agree on which channels are in use. -/
structure Consistent (canceller : Canceller Id) (system : System Id) : Prop where
  activeRuns : ∀ id channel, system.registry.active id = some channel →
    system.calls id = .running channel
  runningKnown : ∀ id channel, system.calls id = .running channel →
    system.registry.active id = some channel ∨ channel ∈ system.raised
  runningMade : ∀ id channel, system.calls id = .running channel → channel < system.channels
  raisedMade : ∀ channel ∈ system.raised, channel < system.channels
  ownChannel : ∀ id other channel, system.calls id = .running channel →
    system.calls other = .running channel → id = other
  takenIds : ∀ id, system.calls id ≠ .waiting → canceller.takes id

variable {canceller : Canceller Id} {system : System Id}

theorem step_cancel_idle {id : Id} (taken : canceller.takes id)
    (isIdle : system.registry.active id = none) :
    step canceller system (.cancel id) =
      { system with registry := system.registry.remember id } := by
  simp [step, canceller.cancel_idle _ _ taken isIdle]

theorem cancel_cases (canceller : Canceller Id) (system : System Id) (id : Id) :
    (¬ canceller.takes id ∧ step canceller system (.cancel id) = system) ∨
    (canceller.takes id ∧ system.registry.active id = none ∧
      step canceller system (.cancel id) =
        { system with registry := system.registry.remember id }) ∨
    (∃ channel, canceller.takes id ∧ system.registry.active id = some channel ∧
      (step canceller system (.cancel id)).registry.pending = system.registry.pending ∧
      (step canceller system (.cancel id)).raised = system.raised ∪ {channel}) := by
  by_cases taken : canceller.takes id
  · right
    cases isActive : system.registry.active id with
    | none =>
        left
        exact ⟨taken, rfl, step_cancel_idle taken isActive⟩
    | some channel =>
        right
        have signals := canceller.cancel_active _ _ channel taken isActive
        refine ⟨channel, taken, rfl, signals.2, ?_⟩
        simp [step, signals.1]
  · left
    refine ⟨taken, ?_⟩
    simp [step, canceller.cancel_ignored _ _ taken]

@[simp]
theorem cancel_calls (id : Id) : (step canceller system (.cancel id)).calls = system.calls := rfl

@[simp]
theorem cancel_channels (id : Id) :
    (step canceller system (.cancel id)).channels = system.channels := rfl

theorem cancel_active_sub {id other : Id} {channel : ℕ}
    (isActive : (step canceller system (.cancel id)).registry.active other = some channel) :
    system.registry.active other = some channel := by
  by_cases same : other = id
  · rw [same] at isActive ⊢
    exact canceller.cancel_self _ _ _ isActive
  · exact (canceller.cancel_others _ _ _ same).symm.trans isActive

theorem cancel_raised_mono (id : Id) :
    system.raised ⊆ (step canceller system (.cancel id)).raised :=
  Finset.subset_union_left

theorem registerCall_cases (system : System Id) (id : Id) :
    (id ∈ system.registry.pending ∧
      registerCall system id = { system with
        registry := { system.registry with pending := system.registry.pending.erase id }
        calls := Function.update system.calls id .refused }) ∨
    (id ∉ system.registry.pending ∧
      registerCall system id = { system with
        registry := { system.registry with
          active := Function.update system.registry.active id (some system.channels) }
        channels := system.channels + 1
        calls := Function.update system.calls id (.running system.channels) }) := by
  by_cases isPending : id ∈ system.registry.pending
  · left
    exact ⟨isPending, by simp [registerCall, Registry.register, isPending]⟩
  · right
    exact ⟨isPending, by simp [registerCall, Registry.register, isPending]⟩

theorem finishCall_eq {id : Id} {channel : ℕ} (runs : system.calls id = .running channel) :
    finishCall system id = { system with
      registry := system.registry.finish id
      calls := Function.update system.calls id (.ended (channel ∈ system.raised)) } := by
  rw [finishCall, runs]

theorem consistent_initial : Consistent canceller (System.initial : System Id) where
  activeRuns _ _ isActive := absurd isActive (by simp [System.initial, Registry.empty])
  runningKnown _ _ runs := absurd runs (by simp [System.initial])
  runningMade _ _ runs := absurd runs (by simp [System.initial])
  raisedMade _ raised := absurd raised (by simp [System.initial])
  ownChannel _ _ _ runs := absurd runs (by simp [System.initial])
  takenIds _ registered := absurd rfl registered

theorem Consistent.cancel (consistent : Consistent canceller system) (id : Id) :
    Consistent canceller (step canceller system (.cancel id)) where
  activeRuns other channel isActive := consistent.activeRuns _ _ (cancel_active_sub isActive)
  runningKnown other channel runs := by
    rcases consistent.runningKnown _ _ runs with isActive | raised
    · by_cases same : other = id
      · subst same
        rcases cancel_cases canceller system other with
          ⟨_, eq⟩ | ⟨_, isIdle, _⟩ | ⟨signalled, _, wasActive, _, raised⟩
        · rw [eq]
          exact Or.inl isActive
        · rw [isIdle] at isActive
          exact absurd isActive (by simp)
        · right
          rw [isActive, Option.some_inj] at wasActive
          rw [raised, wasActive]
          simp
      · exact Or.inl ((canceller.cancel_others _ _ _ same).trans isActive)
    · exact Or.inr (cancel_raised_mono id raised)
  runningMade := consistent.runningMade
  raisedMade channel isRaised := by
    rcases cancel_cases canceller system id with
      ⟨_, eq⟩ | ⟨_, _, eq⟩ | ⟨signalled, _, wasActive, _, raised⟩
    · rw [eq] at isRaised
      exact consistent.raisedMade _ isRaised
    · rw [eq] at isRaised
      exact consistent.raisedMade _ isRaised
    · rw [raised, Finset.mem_union, Finset.mem_singleton] at isRaised
      rcases isRaised with before | rfl
      · exact consistent.raisedMade _ before
      · exact consistent.runningMade _ _ (consistent.activeRuns _ _ wasActive)
  ownChannel := consistent.ownChannel
  takenIds := consistent.takenIds

theorem Consistent.register (consistent : Consistent canceller system) {id : Id}
    (admitted : canceller.admits id) (waits : system.calls id = .waiting) :
    Consistent canceller (registerCall system id) := by
  have taken : ∀ other, (registerCall system id).calls other ≠ .waiting →
      canceller.takes other := by
    intro other registered
    by_cases same : other = id
    · rw [same]
      exact canceller.takes_of_admits id admitted
    · apply consistent.takenIds
      rcases registerCall_cases system id with ⟨_, eq⟩ | ⟨_, eq⟩
      · simpa only [eq, Function.update_of_ne same] using registered
      · simpa only [eq, Function.update_of_ne same] using registered
  rcases registerCall_cases system id with ⟨_, eq⟩ | ⟨_, eq⟩
  · have otherCall : ∀ other channel, (registerCall system id).calls other = .running channel →
        system.calls other = .running channel := by
      intro other channel runs
      simp only [eq] at runs
      by_cases same : other = id
      · rw [same] at runs
        exact absurd runs (by simp)
      · rwa [Function.update_of_ne same] at runs
    constructor
    · intro other channel isActive
      simp only [eq] at isActive ⊢
      have runs := consistent.activeRuns _ _ isActive
      have different : other ≠ id := by
        rintro rfl
        rw [waits] at runs
        exact absurd runs (by simp)
      exact (Function.update_of_ne different _ _).trans runs
    · intro other channel runs
      have known := consistent.runningKnown _ _ (otherCall other channel runs)
      rwa [eq]
    · intro other channel runs
      have made := consistent.runningMade _ _ (otherCall other channel runs)
      rwa [eq]
    · rw [eq]
      exact consistent.raisedMade
    · intro first second channel firstRuns secondRuns
      exact consistent.ownChannel _ _ _ (otherCall _ _ firstRuns) (otherCall _ _ secondRuns)
    · exact taken
  · have callOf : ∀ other channel, (registerCall system id).calls other = .running channel →
        (other = id ∧ channel = system.channels) ∨
          (other ≠ id ∧ system.calls other = .running channel) := by
      intro other channel runs
      simp only [eq] at runs
      by_cases same : other = id
      · rw [same, Function.update_self, Call.running.injEq] at runs
        exact Or.inl ⟨same, runs.symm⟩
      · rw [Function.update_of_ne same] at runs
        exact Or.inr ⟨same, runs⟩
    constructor
    · intro other channel isActive
      simp only [eq] at isActive ⊢
      by_cases same : other = id
      · rw [same, Function.update_self, Option.some_inj] at isActive
        rw [same, Function.update_self, isActive]
      · rw [Function.update_of_ne same] at isActive
        exact (Function.update_of_ne same _ _).trans (consistent.activeRuns _ _ isActive)
    · intro other channel runs
      rw [eq]
      rcases callOf other channel runs with ⟨rfl, rfl⟩ | ⟨different, before⟩
      · exact Or.inl (Function.update_self ..)
      · rcases consistent.runningKnown _ _ before with isActive | raised
        · exact Or.inl ((Function.update_of_ne different _ _).trans isActive)
        · exact Or.inr raised
    · intro other channel runs
      rw [eq]
      rcases callOf other channel runs with ⟨_, rfl⟩ | ⟨_, before⟩
      · exact Nat.lt_succ_self _
      · exact Nat.lt_succ_of_lt (consistent.runningMade _ _ before)
    · rw [eq]
      exact fun channel raised => Nat.lt_succ_of_lt (consistent.raisedMade _ raised)
    · intro first second channel firstRuns secondRuns
      rcases callOf _ _ firstRuns with ⟨rfl, isNew⟩ | ⟨_, firstBefore⟩
      · rcases callOf _ _ secondRuns with ⟨rfl, _⟩ | ⟨_, secondBefore⟩
        · rfl
        · exact absurd (consistent.runningMade _ _ secondBefore) (by omega)
      · rcases callOf _ _ secondRuns with ⟨rfl, isNew⟩ | ⟨_, secondBefore⟩
        · exact absurd (consistent.runningMade _ _ firstBefore) (by omega)
        · exact consistent.ownChannel _ _ _ firstBefore secondBefore
    · exact taken

theorem Consistent.finish (consistent : Consistent canceller system) {id : Id} {held : ℕ}
    (runs : system.calls id = .running held) : Consistent canceller (finishCall system id) := by
  have eq := finishCall_eq runs
  have callOf : ∀ other channel, (finishCall system id).calls other = .running channel →
      other ≠ id ∧ system.calls other = .running channel := by
    intro other channel runs
    simp only [eq] at runs
    by_cases same : other = id
    · rw [same] at runs
      exact absurd runs (by simp)
    · rw [Function.update_of_ne same] at runs
      exact ⟨same, runs⟩
  constructor
  · intro other channel isActive
    simp only [eq] at isActive ⊢
    by_cases same : other = id
    · rw [same] at isActive
      exact absurd isActive (by simp [Registry.finish])
    · simp only [Registry.finish, Function.update_of_ne same] at isActive ⊢
      exact consistent.activeRuns _ _ isActive
  · intro other channel runs
    rcases callOf _ _ runs with ⟨different, before⟩
    rw [eq]
    simp only [Registry.finish, Function.update_of_ne different]
    exact consistent.runningKnown _ _ before
  · intro other channel runs
    have made := consistent.runningMade _ _ (callOf _ _ runs).2
    rwa [eq]
  · rw [eq]
    exact consistent.raisedMade
  · intro first second channel firstRuns secondRuns
    exact consistent.ownChannel _ _ _ (callOf _ _ firstRuns).2 (callOf _ _ secondRuns).2
  · intro other registered
    apply consistent.takenIds
    by_cases same : other = id
    · rw [same, runs]
      simp
    · simpa only [eq, Function.update_of_ne same] using registered

theorem Consistent.step (consistent : Consistent canceller system) {action : Action Id}
    (enabled : Enabled canceller system action) :
    Consistent canceller (Cancellation.step canceller system action) := by
  cases action with
  | cancel id => exact consistent.cancel id
  | register id => exact consistent.register enabled.1 enabled.2
  | finish id =>
      rcases enabled with ⟨channel, runs⟩
      exact consistent.finish runs

/-! ## Calls that are cancelled -/

/-- The cancellation of a call is pending, or the call ends as cancelled. -/
def Kept (canceller : Canceller Id) (system : System Id) (id : Id) : Prop :=
  (system.calls id = .waiting ∧ (canceller.takes id → id ∈ system.registry.pending)) ∨
    EndsCancelled system id

theorem kept_of_cancel (consistent : Consistent canceller system) {id : Id}
    (going : ¬ HasEnded system id) :
    Kept canceller (step canceller system (.cancel id)) id := by
  cases isCall : system.calls id with
  | waiting =>
      left
      refine ⟨isCall, ?_⟩
      intro taken
      rcases cancel_cases canceller system id with
        ⟨ignored, _⟩ | ⟨_, _, eq⟩ | ⟨channel, _, isActive, _⟩
      · exact absurd taken ignored
      · rw [eq]
        exact Finset.mem_insert_self _ _
      · have runs := consistent.activeRuns _ _ isActive
        rw [isCall] at runs
        exact absurd runs (by simp)
  | refused =>
      right
      rw [EndsCancelled, cancel_calls, isCall]
      trivial
  | running channel =>
      right
      rw [EndsCancelled, cancel_calls, isCall]
      rcases consistent.runningKnown _ _ isCall with isActive | raised
      · rcases cancel_cases canceller system id with
          ⟨ignored, eq⟩ | ⟨_, isIdle, _⟩ | ⟨signal, _, wasActive, _, raised⟩
        · exact absurd (consistent.takenIds id (by rw [isCall]; simp)) ignored
        · rw [isIdle] at isActive
          exact absurd isActive (by simp)
        · rw [isActive, Option.some_inj] at wasActive
          rw [raised, wasActive]
          simp
      · exact cancel_raised_mono id raised
  | ended signalled => exact absurd ⟨signalled, isCall⟩ going

/-- A cancellation is kept by every step that does not empty the pending ones. -/
theorem Kept.step {id : Id} (kept : Kept canceller system id) {action : Action Id}
    (enabled : Enabled canceller system action) :
    Kept canceller (Cancellation.step canceller system action) id ∨
      system.calls id = .waiting ∧ Empties canceller system id action := by
  cases action with
  | cancel other =>
      rcases kept with ⟨waits, pends⟩ | ends
      · by_cases taken : canceller.takes id
        · rcases cancel_cases canceller system other with
            ⟨_, eq⟩ | ⟨otherTaken, isIdle, eq⟩ | ⟨channel, _, _, samePending, _⟩
          · left
            rw [eq]
            exact Or.inl ⟨waits, pends⟩
          · by_cases same : other = id
            · left
              refine Or.inl ⟨waits, fun _ => ?_⟩
              rw [eq, same]
              exact Finset.mem_insert_self _ _
            · by_cases isFull : maxCancellationIds ≤ system.registry.pending.card
              · exact Or.inr ⟨waits, other, rfl, same, otherTaken, isIdle, isFull⟩
              · left
                refine Or.inl ⟨waits, fun _ => ?_⟩
                rw [eq]
                simp only [Registry.remember, if_neg isFull]
                exact Finset.mem_insert_of_mem (pends taken)
          · left
            refine Or.inl ⟨waits, fun _ => ?_⟩
            rw [samePending]
            exact pends taken
        · exact Or.inl (Or.inl ⟨waits, fun taken' => absurd taken' taken⟩)
      · left
        right
        unfold EndsCancelled at ends ⊢
        rw [cancel_calls]
        cases isCall : system.calls id with
        | waiting => rwa [isCall] at ends
        | refused => trivial
        | running channel =>
            rw [isCall] at ends
            exact cancel_raised_mono other ends
        | ended signalled => rwa [isCall] at ends
  | register other =>
      left
      change Kept canceller (registerCall system other) id
      by_cases same : other = id
      · subst same
        rcases kept with ⟨_, pends⟩ | ends
        · have isPending := pends (canceller.takes_of_admits _ enabled.1)
          rcases registerCall_cases system other with ⟨_, eq⟩ | ⟨notPending, _⟩
          · right
            rw [eq, EndsCancelled]
            simp
          · exact absurd isPending notPending
        · rw [EndsCancelled, enabled.2] at ends
          exact ends.elim
      · have others : (registerCall system other).calls id = system.calls id ∧
            (id ∈ system.registry.pending → id ∈ (registerCall system other).registry.pending) ∧
            (registerCall system other).raised = system.raised := by
          rcases registerCall_cases system other with ⟨_, eq⟩ | ⟨_, eq⟩
          · rw [eq]
            exact ⟨Function.update_of_ne (Ne.symm same) _ _,
              Finset.mem_erase_of_ne_of_mem (Ne.symm same), rfl⟩
          · rw [eq]
            exact ⟨Function.update_of_ne (Ne.symm same) _ _, fun pends => pends, rfl⟩
        rcases kept with ⟨waits, pends⟩ | ends
        · exact Or.inl ⟨others.1.trans waits, fun taken => others.2.1 (pends taken)⟩
        · right
          unfold EndsCancelled at ends ⊢
          rwa [others.1, others.2.2]
  | finish other =>
      left
      rcases enabled with ⟨channel, runs⟩
      change Kept canceller (finishCall system other) id
      rw [finishCall_eq runs]
      by_cases same : other = id
      · subst same
        rcases kept with ⟨waits, _⟩ | ends
        · rw [runs] at waits
          exact absurd waits (by simp)
        · right
          rw [EndsCancelled, runs] at ends
          simpa [EndsCancelled] using ends
      · rcases kept with ⟨waits, pends⟩ | ends
        · refine Or.inl ⟨(Function.update_of_ne (Ne.symm same) _ _).trans waits, fun taken => ?_⟩
          exact Finset.mem_erase_of_ne_of_mem (Ne.symm same) (pends taken)
        · right
          unfold EndsCancelled at ends ⊢
          simpa only [Function.update_of_ne (Ne.symm same)] using ends

/-! ## Calls that are not cancelled -/

/-- A call is not cancelled, and no cancellation of it is pending. -/
def Untouched (system : System Id) (id : Id) : Prop :=
  id ∉ system.registry.pending ∧ Uncancelled system id

theorem Untouched.step (consistent : Consistent canceller system) {id : Id}
    (untouched : Untouched system id) {action : Action Id}
    (enabled : Enabled canceller system action) (notCancel : action ≠ .cancel id) :
    Untouched (Cancellation.step canceller system action) id := by
  rcases untouched with ⟨notPending, goes⟩
  cases action with
  | cancel other =>
      have different : id ≠ other := by
        rintro rfl
        exact notCancel rfl
      rcases cancel_cases canceller system other with
        ⟨_, eq⟩ | ⟨_, _, eq⟩ | ⟨channel, _, isActive, samePending, raised⟩
      · rw [eq]
        exact ⟨notPending, goes⟩
      · rw [eq]
        refine ⟨?_, goes⟩
        simp only [Registry.remember, Finset.mem_insert, not_or]
        refine ⟨different, ?_⟩
        split
        case isTrue => simp
        case isFalse => exact notPending
      · refine ⟨by rwa [samePending], ?_⟩
        unfold Uncancelled at goes ⊢
        rw [cancel_calls, raised]
        cases isCall : system.calls id with
        | waiting => trivial
        | refused => rwa [isCall] at goes
        | running held =>
            rw [isCall] at goes
            have otherChannel : held ≠ channel := by
              rintro rfl
              exact different (consistent.ownChannel _ _ _ isCall
                (consistent.activeRuns _ _ isActive))
            simpa [otherChannel] using goes
        | ended signalled => rwa [isCall] at goes
  | register other =>
      change Untouched (registerCall system other) id
      rcases registerCall_cases system other with ⟨isPending, eq⟩ | ⟨_, eq⟩
      · have different : id ≠ other := by
          rintro rfl
          exact notPending isPending
        rw [eq]
        refine ⟨fun pends => notPending (Finset.mem_of_mem_erase pends), ?_⟩
        unfold Uncancelled at goes ⊢
        simpa only [Function.update_of_ne different] using goes
      · rw [eq]
        refine ⟨notPending, ?_⟩
        by_cases same : id = other
        · subst same
          have fresh : system.channels ∉ system.raised := fun raised =>
            absurd (consistent.raisedMade _ raised) (lt_irrefl _)
          simpa [Uncancelled] using fresh
        · unfold Uncancelled at goes ⊢
          simpa only [Function.update_of_ne same] using goes
  | finish other =>
      rcases enabled with ⟨channel, runs⟩
      change Untouched (finishCall system other) id
      rw [finishCall_eq runs]
      refine ⟨fun pends => notPending (Finset.mem_of_mem_erase pends), ?_⟩
      by_cases same : id = other
      · subst same
        rw [Uncancelled, runs] at goes
        simpa [Uncancelled] using goes
      · unfold Uncancelled at goes ⊢
        simpa only [Function.update_of_ne same] using goes

/-! ## Runs -/

theorem consistent_stateAt {actions : List (Action Id)} (isRun : IsRun canceller actions) :
    EveryState (step canceller) System.initial actions (Consistent canceller) :=
  EveryState.of_everyStep consistent_initial
    (fun _ _ consistent enabled => consistent.step enabled) isRun

theorem lostIfEmptied (canceller : Canceller Id) : LostIfEmptied canceller := by
  intro actions isRun id i n before inRange isCancel going
  have kept : Kept canceller (stateAt (step canceller) System.initial actions n) id ∨
      ∃ k, ∃ inRange : k < actions.length, i < k ∧ k < n ∧
        (stateAt (step canceller) System.initial actions k).calls id = .waiting ∧
        Empties canceller (stateAt (step canceller) System.initial actions k) id actions[k] := by
    induction n, before using Nat.le_induction with
    | base =>
        left
        rw [stateAt_succ inRange, (List.getElem?_eq_some_iff.mp isCancel).2]
        exact kept_of_cancel (consistent_stateAt isRun i (by omega)) going
    | succ n before ih =>
        rcases ih (by omega) with kept | ⟨k, kInRange, after, kBefore, emptied⟩
        · rw [stateAt_succ inRange]
          rcases kept.step (isRun n inRange) with kept | emptied
          · exact Or.inl kept
          · exact Or.inr ⟨n, inRange, before, Nat.lt_succ_self n, emptied⟩
        · exact Or.inr ⟨k, kInRange, after, Nat.lt_succ_of_lt kBefore, emptied⟩
  rcases kept with (⟨waits, _⟩ | ends) | emptied
  · exact Or.inl waits
  · exact Or.inr (Or.inl ends)
  · exact Or.inr (Or.inr emptied)

theorem neverRefused (canceller : Canceller Id) : NeverRefused canceller := by
  intro actions isRun id n inRange never
  have untouched : Untouched (stateAt (step canceller) System.initial actions n) id := by
    induction n with
    | zero => exact ⟨Finset.notMem_empty id, trivial⟩
    | succ n ih =>
        have nInRange : n < actions.length := inRange
        rw [List.take_succ_eq_append_getElem nInRange, List.mem_append, not_or,
          List.mem_singleton] at never
        rw [stateAt_succ nInRange]
        exact (ih (by omega) never.1).step (consistent_stateAt isRun n (by omega))
          (isRun n nInRange) (Ne.symm never.2)
  exact untouched.2

theorem maxCancellationIds_pos : 0 < maxCancellationIds := by decide

attribute [local irreducible] maxCancellationIds

/-- A cancellation, as many others as there is room for, and the call. -/
def overflow (ids : ℕ → Id) : List (Action Id) :=
  (List.range (maxCancellationIds + 1)).map (fun n => .cancel (ids n)) ++ [.register (ids 0)]

/-- The ids are different, as far as they are used. -/
def AreDifferent (ids : ℕ → Id) : Prop :=
  Set.InjOn ids (Set.Iic maxCancellationIds)

omit [DecidableEq Id] in
theorem AreDifferent.range {ids : ℕ → Id} (different : AreDifferent ids) {count : ℕ}
    (room : count ≤ maxCancellationIds) : Set.InjOn ids (Finset.range count : Set ℕ) :=
  different.mono fun _ inRange =>
    Nat.le_of_lt ((Finset.mem_range.mp (Finset.mem_coe.mp inRange)).trans_le room)

theorem foldl_cancels {ids : ℕ → Id} (different : AreDifferent ids)
    (taken : ∀ n ≤ maxCancellationIds, canceller.takes (ids n)) {count : ℕ}
    (room : count ≤ maxCancellationIds) :
    ((List.range count).map fun n => Action.cancel (ids n)).foldl (step canceller)
        System.initial =
      { System.initial with
        registry := { Registry.empty with pending := (Finset.range count).image ids } } := by
  induction count with
  | zero => rfl
  | succ count ih =>
      have notFull : ¬ maxCancellationIds ≤ ((Finset.range count).image ids).card := by
        rw [Finset.card_image_of_injOn (different.range (by omega)), Finset.card_range]
        omega
      rw [List.range_succ, List.map_append, List.foldl_append, ih (by omega), List.map_singleton,
        List.foldl_cons, List.foldl_nil, step_cancel_idle (taken count (by omega)) rfl]
      simp [Registry.remember, notFull, Finset.range_add_one, Finset.image_insert]

/-- The call registers as if it had not been cancelled. -/
theorem not_neverLost {ids : ℕ → Id} (different : AreDifferent ids)
    (admitted : ∀ n ≤ maxCancellationIds, canceller.admits (ids n)) : ¬ NeverLost canceller := by
  intro neverLost
  have taken := fun n isUsed => canceller.takes_of_admits _ (admitted n isUsed)
  have pending : ids 0 ∉ ({ids maxCancellationIds} : Finset Id) := by
    rw [Finset.mem_singleton]
    exact fun same => maxCancellationIds_pos.ne
      (different (Set.mem_Iic.mpr (Nat.zero_le _)) (Set.mem_Iic.mpr le_rfl) same)
  have full : maxCancellationIds ≤ ((Finset.range maxCancellationIds).image ids).card := by
    rw [Finset.card_image_of_injOn (different.range le_rfl), Finset.card_range]
  have length : (overflow ids).length = maxCancellationIds + 2 := by simp [overflow]
  have cancels : stateAt (step canceller) System.initial (overflow ids) (maxCancellationIds + 1) =
      { System.initial with
        registry := { Registry.empty with pending := {ids maxCancellationIds} } } := by
    rw [stateAt, overflow, List.take_left' (by simp), List.range_succ, List.map_append,
      List.foldl_append, foldl_cancels different taken le_rfl, List.map_singleton, List.foldl_cons,
      List.foldl_nil, step_cancel_idle (taken _ le_rfl) rfl]
    simp [Registry.remember, full]
  have last : (overflow ids)[maxCancellationIds + 1]? = some (.register (ids 0)) := by
    rw [overflow, List.getElem?_append_right (by simp)]
    simp
  have isRun : IsRun canceller (overflow ids) := by
    intro n inRange
    by_cases isLast : n = maxCancellationIds + 1
    · subst isLast
      rw [(List.getElem?_eq_some_iff.mp last).2, cancels]
      exact ⟨admitted 0 (Nat.zero_le _), rfl⟩
    · have isCancel : (overflow ids)[n]? = some (.cancel (ids n)) := by
        have isUsed : n < maxCancellationIds + 1 := by omega
        rw [overflow, List.getElem?_append_left (by simpa using isUsed), List.getElem?_map,
          List.getElem?_range isUsed, Option.map_some]
      rw [(List.getElem?_eq_some_iff.mp isCancel).2]
      trivial
  have first : (overflow ids)[0]? = some (.cancel (ids 0)) := by
    rw [overflow, List.getElem?_append_left (by simp)]
    simp
  have ended := neverLost _ isRun (ids 0) 0 (maxCancellationIds + 2) (Nat.succ_pos _) length.ge
    first
    (by simp [HasEnded, System.initial])
  rw [stateAt_succ (by omega), (List.getElem?_eq_some_iff.mp last).2, cancels] at ended
  simp [step, registerCall, Registry.register, Registry.empty, System.initial, EndsCancelled,
    pending] at ended

def letterId (n : ℕ) : Text := [Char.ofNat (n + 1)]

theorem letterId_toNat {n : ℕ} (small : n ≤ maxCancellationIds) :
    (Char.ofNat (n + 1)).toNat = n + 1 := by
  unfold maxCancellationIds at small
  exact (Char.toNat_ofNat _).trans (if_pos (Or.inl (by omega)))

theorem letterId_areDifferent : AreDifferent letterId := by
  intro first firstSmall second secondSmall same
  have sameCode := congrArg Char.toNat (List.singleton_inj.mp same)
  rw [letterId_toNat firstSmall, letterId_toNat secondSmall] at sameCode
  exact Nat.succ_injective sameCode

theorem letterId_isStdioId {n : ℕ} (small : n ≤ maxCancellationIds) :
    isStdioId (letterId n) = true := by
  have code := letterId_toNat small
  have notNul : '\x00' ≠ Char.ofNat (n + 1) := by
    intro same
    rw [← same] at code
    exact absurd code (Nat.succ_ne_zero n).symm
  have short : (Multipart.utf8 (letterId n)).length ≤ maxCancellationIdBytes := by
    have length := Char.utf8Size_le_four (Char.ofNat (n + 1))
    simp only [Multipart.utf8, letterId, List.flatMap_singleton, String.length_utf8EncodeChar]
    exact length.trans (by decide)
  simp only [isStdioId, decide_eq_true_eq]
  exact ⟨List.cons_ne_nil _ _, by simpa [letterId] using notNul, short⟩

end Brunomnia.Cancellation
