import Mathlib

/-!
# Runs of a system

A system takes its actions one after the other. This file names the state after
every prefix of a sequence of actions and states the induction over such runs:
an invariant that allowed steps preserve holds in every state, and when it holds
after a step exactly if the step was allowed, it holds along a run exactly if
every step of the run was allowed.
-/

namespace Brunomnia.Library

universe u v

variable {State : Type u} {Action : Type v}

theorem map_eq_ok {Failure Value Result : Type*} {outcome : Except Failure Value}
    {f : Value → Result} {result : Result} :
    outcome.map f = .ok result ↔ ∃ value, outcome = .ok value ∧ f value = result := by
  cases outcome with
  | error failure => simp [Except.map]
  | ok value => simp [Except.map]

theorem bind_eq_ok_iff {Failure Value Result : Type*} {outcome : Except Failure Value}
    {next : Value → Except Failure Result} {result : Result} :
    outcome.bind next = .ok result ↔ ∃ value, outcome = .ok value ∧ next value = .ok result := by
  cases outcome with
  | error failure => simp [Except.bind]
  | ok value => simp [Except.bind]

/-- The state after the first actions of a sequence. -/
def stateAt (step : State → Action → State) (initial : State) (actions : List Action) (n : ℕ) :
    State :=
  (actions.take n).foldl step initial

variable {step : State → Action → State} {initial : State} {actions : List Action}

@[simp]
theorem stateAt_zero : stateAt step initial actions 0 = initial := rfl

theorem stateAt_succ {n : ℕ} (inRange : n < actions.length) :
    stateAt step initial actions (n + 1) = step (stateAt step initial actions n) actions[n] := by
  unfold stateAt
  rw [List.take_succ_eq_append_getElem inRange, List.foldl_append]
  rfl

/-- Every action of a sequence satisfies a condition in the state it is taken in. -/
def EveryStep (step : State → Action → State) (initial : State) (actions : List Action)
    (allowed : State → Action → Prop) : Prop :=
  ∀ n (inRange : n < actions.length), allowed (stateAt step initial actions n) actions[n]

/-- Every state on the way, the first and the last one included, satisfies a property. -/
def EveryState (step : State → Action → State) (initial : State) (actions : List Action)
    (holds : State → Prop) : Prop :=
  ∀ n ≤ actions.length, holds (stateAt step initial actions n)

theorem everyStep_cons_iff {action : Action} {allowed : State → Action → Prop} :
    EveryStep step initial (action :: actions) allowed ↔
      allowed initial action ∧ EveryStep step (step initial action) actions allowed := by
  constructor
  · intro every
    refine ⟨every 0 (Nat.zero_lt_succ _), ?_⟩
    intro n inRange
    exact every (n + 1) (Nat.succ_lt_succ inRange)
  · rintro ⟨first, others⟩ n inRange
    cases n with
    | zero => exact first
    | succ n => exact others n (Nat.lt_of_succ_lt_succ inRange)

/-- An invariant that allowed steps preserve holds in every state of a run. -/
theorem EveryState.of_everyStep {holds : State → Prop} {allowed : State → Action → Prop}
    (start : holds initial)
    (preserved : ∀ state action, holds state → allowed state action → holds (step state action))
    (every : EveryStep step initial actions allowed) :
    EveryState step initial actions holds := by
  intro n
  induction n with
  | zero => exact fun _ => start
  | succ n ih =>
      intro inRange
      rw [stateAt_succ inRange]
      exact preserved _ _ (ih (Nat.le_of_lt inRange)) (every n inRange)

/-- Steps that keep an invariant exactly when they are allowed make up the runs
along which the invariant holds. -/
theorem everyState_iff_everyStep (actions : List Action) {holds : State → Prop}
    {allowed : State → Action → Prop} (start : holds initial)
    (preserved : ∀ state action, holds state → (holds (step state action) ↔ allowed state action)) :
    EveryState step initial actions holds ↔ EveryStep step initial actions allowed := by
  constructor
  · intro every n inRange
    have next := every (n + 1) inRange
    rw [stateAt_succ inRange] at next
    exact (preserved _ _ (every n (Nat.le_of_lt inRange))).mp next
  · exact EveryState.of_everyStep start fun state action holds =>
      (preserved state action holds).mpr

/-- The same for a property that needs an invariant next to it, which every step keeps
as long as the property holds. -/
theorem everyState_iff_everyStep_of_invariant (actions : List Action)
    (invariant : State → Prop) {holds : State → Prop} {allowed : State → Action → Prop}
    (start : invariant initial ∧ holds initial)
    (kept : ∀ state action, invariant state → holds state → invariant (step state action))
    (preserved : ∀ state action, invariant state → holds state →
      (holds (step state action) ↔ allowed state action)) :
    EveryState step initial actions holds ↔ EveryStep step initial actions allowed := by
  have both_iff : EveryState step initial actions (fun state => invariant state ∧ holds state) ↔
      EveryStep step initial actions allowed := by
    refine everyState_iff_everyStep actions ?_ ?_
    · exact start
    · intro state action both
      rw [and_iff_right (kept state action both.1 both.2)]
      exact preserved state action both.1 both.2
  rw [← both_iff]
  constructor
  · intro every n
    induction n with
    | zero => exact fun _ => start
    | succ n ih =>
        intro inRange
        have before := ih (Nat.le_of_lt inRange)
        refine ⟨?_, every (n + 1) inRange⟩
        rw [stateAt_succ inRange]
        exact kept _ _ before.1 before.2
  · exact fun every n inRange => (every n inRange).2

/-- Two conditions on steps that agree wherever an invariant and a further condition hold. -/
theorem everyStep_iff_of_invariant {invariant : State → Prop}
    {given first second : State → Action → Prop} (start : invariant initial)
    (every : EveryStep step initial actions given)
    (kept : ∀ state action, invariant state → first state action →
      invariant (step state action))
    (same : ∀ state action, invariant state → given state action →
      (first state action ↔ second state action)) :
    EveryStep step initial actions first ↔ EveryStep step initial actions second := by
  have along (condition : State → Action → Prop)
      (implies : ∀ state action, invariant state → given state action → condition state action →
        first state action)
      (everyCondition : EveryStep step initial actions condition) :
      EveryState step initial actions invariant := by
    intro n
    induction n with
    | zero => exact fun _ => start
    | succ n ih =>
        intro inRange
        have before := ih (Nat.le_of_lt inRange)
        rw [stateAt_succ inRange]
        exact kept _ _ before
          (implies _ _ before (every n inRange) (everyCondition n inRange))
  constructor
  · intro everyFirst n inRange
    have before := along first (fun _ _ _ _ holds => holds) everyFirst n (Nat.le_of_lt inRange)
    exact (same _ _ before (every n inRange)).mp (everyFirst n inRange)
  · intro everySecond n inRange
    have before := along second
      (fun state action invariantHolds givenHolds holds =>
        (same state action invariantHolds givenHolds).mpr holds)
      everySecond n (Nat.le_of_lt inRange)
    exact (same _ _ before (every n inRange)).mpr (everySecond n inRange)

theorem rank_foldl_le (step : State → Action → State) (invariant : State → Prop)
    (rank : State → ℕ) (own : Action → Bool)
    (kept : ∀ state action, invariant state → invariant (step state action) ∧
      rank (step state action) ≤ rank state - if own action then 1 else 0)
    (actions : List Action) {initial : State} (start : invariant initial) :
    invariant (actions.foldl step initial) ∧
      rank (actions.foldl step initial) ≤ rank initial - actions.countP own := by
  induction actions generalizing initial with
  | nil => exact ⟨start, le_rfl⟩
  | cons action actions ih =>
      have first := kept initial action start
      have rest := ih first.1
      refine ⟨rest.1, ?_⟩
      rw [List.foldl_cons, List.countP_cons]
      omega

/-- Fallible steps that keep an invariant, and do not fail where it holds, get through. -/
theorem exists_foldlM_eq_ok {Failure : Type*} {attempt : State → Action → Except Failure State}
    (invariant : State → Prop) (actions : List Action) {initial : State}
    (start : invariant initial)
    (kept : ∀ state, ∀ action ∈ actions, invariant state →
      ∃ after, attempt state action = .ok after ∧ invariant after) :
    ∃ final, actions.foldlM attempt initial = .ok final ∧ invariant final := by
  induction actions generalizing initial with
  | nil => exact ⟨initial, rfl, start⟩
  | cons action actions ih =>
      rcases kept initial action List.mem_cons_self start with ⟨after, succeeded, holds⟩
      rcases ih holds fun state later laterMem => kept state later (List.mem_cons_of_mem _ laterMem)
        with ⟨final, finished, finalHolds⟩
      refine ⟨final, ?_, finalHolds⟩
      rw [List.foldlM_cons, succeeded]
      exact finished

end Brunomnia.Library
