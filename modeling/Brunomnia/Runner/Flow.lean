import Brunomnia.Runner.Agreement
import Brunomnia.Runner.Report
import Brunomnia.Runner.Targets

/-!
# Flow of a run

Which item is executed after which. The runner carries the target of a visit along until a later
item is the one that is meant; the items it passes over are skipped. So an iteration is a chain of
visits, each linked to the next by what its scripts name, and it starts without a target.
-/

namespace Brunomnia.Runner

open Codegen (Text trimText)

/-! ## Targets -/

/-- A target designates an item: the request has that id, or it is the last one with that
name. -/
def Designates (plan : RunnerPlan) (target : Text) (index : ℕ) : Prop :=
  ∃ request, plan.requests[index]? = some request ∧
    (request.id = target ∨
      (trimText request.name = trimText target ∧
        ∀ later other, index < later → plan.requests[later]? = some other →
          trimText other.name ≠ trimText target))

/-- The item that is executed after one, by the target of the visit; none if the iteration
ends. -/
inductive Follows (plan : RunnerPlan) (index : ℕ) : Text → Option ℕ → Prop where
  | inOrder (more : index + 1 < plan.requests.length) : Follows plan index [] (some (index + 1))
  | ends (noMore : plan.requests.length ≤ index + 1) : Follows plan index [] none
  | again {target : Text} (notEmpty : target ≠ []) (itself : Designates plan target index) :
      Follows plan index target (some index)
  | later {target : Text} {next : ℕ} (notEmpty : target ≠ [])
      (notItself : ¬ Designates plan target index) (isLater : index < next)
      (designated : Designates plan target next)
      (first : ∀ between, index < between → between < next → ¬ Designates plan target between) :
      Follows plan index target (some next)
  | nowhere {target : Text} (notEmpty : target ≠ [])
      (notItself : ¬ Designates plan target index)
      (noLater : ∀ later, index < later → ¬ Designates plan target later) :
      Follows plan index target none

/-- An item that is passed over between one item and the next. -/
def PassedOver (index : ℕ) (next : Option ℕ) (between : ℕ) : Prop :=
  index < between ∧ ∀ last, next = some last → between < last

theorem getElem?_concat {Item : Type} (items : List Item) (item : Item) (index : ℕ) :
    (items ++ [item])[index]? = if index = items.length then some item else items[index]? := by
  split
  case isTrue isLast => rw [isLast, List.getElem?_concat_length]
  case isFalse notLast =>
    by_cases inRange : index < items.length
    · rw [List.getElem?_append_left inRange]
    · rw [List.getElem?_eq_none (by simp; omega), List.getElem?_eq_none (by omega)]

/-- The last place of a list with a property, found from behind. -/
theorem find?_reverse_zipIdx {Item : Type} (items : List Item) (holds : Item → Bool)
    {index : ℕ} :
    (items.zipIdx.reverse.find? fun entry => holds entry.1).map Prod.snd = some index ↔
      ∃ item, items[index]? = some item ∧ holds item = true ∧
        ∀ later other, index < later → items[later]? = some other → holds other = false := by
  induction items using List.reverseRecOn with
  | nil => simp
  | append_singleton items item ih =>
      rw [List.zipIdx_append, List.reverse_append, Nat.zero_add]
      change (((item, items.length) :: items.zipIdx.reverse).find?
        fun entry => holds entry.1).map Prod.snd = some index ↔ _
      rw [List.find?_cons]
      cases isLast : holds item with
      | true =>
          simp only [Option.map_some, Option.some.injEq]
          constructor
          · rintro rfl
            refine ⟨item, List.getElem?_concat_length, isLast, ?_⟩
            intro later other behind isOther
            have inRange := (List.getElem?_eq_some_iff.mp isOther).1
            rw [List.length_append, List.length_singleton] at inRange
            omega
          · rintro ⟨other, isOther, _, noLater⟩
            have inRange := (List.getElem?_eq_some_iff.mp isOther).1
            rw [List.length_append, List.length_singleton] at inRange
            by_contra notLast
            have isFalse := noLater items.length item (by omega) List.getElem?_concat_length
            rw [isLast] at isFalse
            cases isFalse
      | false =>
          simp only
          rw [ih]
          constructor
          · rintro ⟨other, isOther, holdsOther, noLater⟩
            have inRange := (List.getElem?_eq_some_iff.mp isOther).1
            refine ⟨other, ?_, holdsOther, ?_⟩
            · rw [List.getElem?_append_left inRange, isOther]
            · intro later another behind isAnother
              rw [getElem?_concat] at isAnother
              split at isAnother
              · cases isAnother
                exact isLast
              · exact noLater later another behind isAnother
          · rintro ⟨other, isOther, holdsOther, noLater⟩
            rw [getElem?_concat] at isOther
            split at isOther
            · cases isOther
              rw [isLast] at holdsOther
              cases holdsOther
            · refine ⟨other, isOther, holdsOther, ?_⟩
              intro later another behind isAnother
              have inRange := (List.getElem?_eq_some_iff.mp isAnother).1
              exact noLater later another behind (by
                rw [List.getElem?_append_left inRange, isAnother])

theorem lastRequestNameIndex_eq_some_iff {plan : RunnerPlan} {target : Text} {index : ℕ} :
    lastRequestNameIndex plan target = some index ↔
      ∃ request, plan.requests[index]? = some request ∧
        trimText request.name = trimText target ∧
        ∀ later other, index < later → plan.requests[later]? = some other →
          trimText other.name ≠ trimText target := by
  have found := @find?_reverse_zipIdx CollectionRequest plan.requests
    (fun request => trimText request.name = trimText target) index
  simp only [decide_eq_true_eq, decide_eq_false_iff_not] at found
  exact found

theorem matchesNextRequest_iff {plan : RunnerPlan} {request : CollectionRequest} {index : ℕ}
    (isRequest : plan.requests[index]? = some request) (target : Text) :
    matchesNextRequest plan request index target = true ↔ Designates plan target index := by
  unfold matchesNextRequest Designates
  rw [decide_eq_true_eq, @eq_comm _ (some index), lastRequestNameIndex_eq_some_iff, isRequest]
  simp only [Option.some.injEq, exists_eq_left']
  constructor
  · rintro (isId | ⟨named, last⟩)
    · exact Or.inl isId
    · exact Or.inr last
  · rintro (isId | last)
    · exact Or.inl isId
    · exact Or.inr ⟨last.1, last⟩

/-! ## Items that are passed over -/

/-- An item of an iteration that is at one of some places and has not finished. -/
def IsPassed (iteration : ℕ) (within : ℕ → Prop) (item : LiveItem) : Prop :=
  item.key.iteration = iteration + 1 ∧ within item.key.index ∧
    isRunnerItemFinished item.status = false

/-- An item is skipped if it is passed over and has not finished. -/
structure PassesItem (iteration : ℕ) (within : ℕ → Prop) (item later : LiveItem) : Prop where
  key : later.key = item.key
  passed : IsPassed iteration within item → later.status = .skipped
  others : ¬ IsPassed iteration within item → later.status = item.status

/-- Items are passed over, and nothing else happens. -/
structure Passes (iteration : ℕ) (within : ℕ → Prop) (state after : RunnerState) : Prop where
  items : List.Forall₂ (PassesItem iteration within) state.liveItems after.liveItems
  results : after.results = state.results
  visits : after.visits = state.visits
  scopes : after.scopes = state.scopes
  clock : after.clock = state.clock
  unstopped : Unstopped state → Unstopped after

section Passes

variable {iteration : ℕ} {within : ℕ → Prop} {state after : RunnerState}

theorem PassesItem.refl {item : LiveItem} (notPassed : ¬ IsPassed iteration within item) :
    PassesItem iteration within item item :=
  ⟨rfl, fun passed => absurd passed notPassed, fun _ => rfl⟩

theorem PassesItem.trans {first second : ℕ → Prop} {item middle last : LiveItem}
    (either : ∀ index, within index ↔ first index ∨ second index)
    (before : PassesItem iteration first item middle)
    (behind : PassesItem iteration second middle last) : PassesItem iteration within item last := by
  refine ⟨behind.key.trans before.key, ?_, ?_⟩
  · rintro ⟨inIteration, isOver, unfinished⟩
    by_cases passed : IsPassed iteration first item
    · have skipped := before.passed passed
      rw [← skipped]
      apply behind.others
      rintro ⟨_, _, notFinished⟩
      rw [skipped] at notFinished
      cases notFinished
    · apply behind.passed
      rw [IsPassed, before.key, before.others passed]
      refine ⟨inIteration, ?_, unfinished⟩
      rcases (either _).mp isOver with isFirst | isSecond
      · exact absurd ⟨inIteration, isFirst, unfinished⟩ passed
      · exact isSecond
  · intro notPassed
    have notFirst : ¬ IsPassed iteration first item := fun passed =>
      notPassed ⟨passed.1, (either _).mpr (Or.inl passed.2.1), passed.2.2⟩
    rw [← before.others notFirst]
    apply behind.others
    rintro ⟨inIteration, isSecond, unfinished⟩
    rw [before.key] at inIteration isSecond
    rw [before.others notFirst] at unfinished
    exact notPassed ⟨inIteration, (either _).mpr (Or.inr isSecond), unfinished⟩

theorem Passes.refl (noOne : ∀ item ∈ state.liveItems, ¬ IsPassed iteration within item) :
    Passes iteration within state state :=
  ⟨List.forall₂_same.mpr fun item mem => .refl (noOne item mem), rfl, rfl, rfl, rfl, id⟩

theorem passesItems_trans {first second : ℕ → Prop} {items middle last : List LiveItem}
    (either : ∀ index, within index ↔ first index ∨ second index)
    (before : List.Forall₂ (PassesItem iteration first) items middle)
    (behind : List.Forall₂ (PassesItem iteration second) middle last) :
    List.Forall₂ (PassesItem iteration within) items last := by
  induction before generalizing last with
  | nil => cases behind; exact .nil
  | cons passes _ ih =>
      cases behind with
      | cons passesLater others => exact .cons (passes.trans either passesLater) (ih others)

theorem Passes.trans {first second : ℕ → Prop} {middle : RunnerState}
    (either : ∀ index, within index ↔ first index ∨ second index)
    (before : Passes iteration first state middle) (behind : Passes iteration second middle after) :
    Passes iteration within state after :=
  ⟨passesItems_trans either before.items behind.items, behind.results.trans before.results,
    behind.visits.trans before.visits, behind.scopes.trans before.scopes,
    behind.clock.trans before.clock, fun unstopped => behind.unstopped (before.unstopped unstopped)⟩

theorem Passes.congr {other : ℕ → Prop} (same : ∀ index, within index ↔ other index)
    (passes : Passes iteration within state after) : Passes iteration other state after := by
  have eq : within = other := funext fun index => propext (same index)
  rwa [← eq]

theorem passesItems_keys {items later : List LiveItem}
    (passes : List.Forall₂ (PassesItem iteration within) items later) :
    later.map LiveItem.key = items.map LiveItem.key := by
  induction passes with
  | nil => rfl
  | cons passesItem _ ih => rw [List.map_cons, List.map_cons, passesItem.key, ih]

theorem Passes.keys (passes : Passes iteration within state after) :
    after.liveItems.map LiveItem.key = state.liveItems.map LiveItem.key :=
  passesItems_keys passes.items

theorem passesItems_updateFirst {key : ItemKey} {change : LiveItem → LiveItem}
    {items : List LiveItem} (nodup : (items.map LiveItem.key).Nodup)
    (isKey : key.iteration = iteration + 1)
    (identified : ∀ item ∈ items, item.key.iteration = iteration + 1 →
      item.key.index = key.index → item.key = key)
    (changes : ∀ item, (change item).key = item.key ∧
      (change item).status = RunnerState.nextStatus item.status (some .skipped)) :
    List.Forall₂ (PassesItem iteration fun index => index = key.index) items
      (RunnerState.updateFirst key change items) := by
  induction items with
  | nil => exact .nil
  | cons item items ih =>
      rw [List.map_cons, List.nodup_cons] at nodup
      rw [List.forall_mem_cons] at identified
      unfold RunnerState.updateFirst
      split
      case isTrue found =>
        refine .cons ⟨(changes item).1, ?_, ?_⟩ ?_
        · rintro ⟨_, _, unfinished⟩
          rw [(changes item).2, RunnerState.nextStatus, unfinished]
          rfl
        · intro notPassed
          rw [(changes item).2]
          apply RunnerState.nextStatus_of_finished
          by_contra unfinished
          rw [Bool.not_eq_true] at unfinished
          exact notPassed ⟨by rw [found, isKey], by rw [found], unfinished⟩
        · apply List.forall₂_same.mpr
          intro other mem
          apply PassesItem.refl
          rintro ⟨inIteration, isIndex, _⟩
          apply nodup.1
          rw [found, ← identified.2 other mem inIteration isIndex]
          exact List.mem_map_of_mem mem
      case isFalse notFound =>
        refine .cons (.refl ?_) (ih nodup.2 identified.2)
        rintro ⟨inIteration, isIndex, _⟩
        exact notFound (identified.1 inIteration isIndex)

structure HasPlannedItems (plan : RunnerPlan) (state : RunnerState) : Prop where
  nodup : (state.liveItems.map LiveItem.key).Nodup
  planned : ∀ key ∈ state.liveItems.map LiveItem.key, IsItemKey plan key

theorem HasPlannedItems.of_keys {plan : RunnerPlan} (items : HasPlannedItems plan state)
    (keys : after.liveItems.map LiveItem.key = state.liveItems.map LiveItem.key) :
    HasPlannedItems plan after :=
  ⟨keys ▸ items.nodup, keys ▸ items.planned⟩

theorem HasPlannedItems.inRange {plan : RunnerPlan} (items : HasPlannedItems plan state)
    {item : LiveItem} (mem : item ∈ state.liveItems) :
    item.key.index < plan.requests.length := by
  rcases items.planned _ (List.mem_map_of_mem mem) with ⟨number, index, request, isRequest, eq⟩
  rw [eq]
  exact (List.getElem?_eq_some_iff.mp isRequest).1

theorem HasPlannedItems.passes_updateLiveItem {plan : RunnerPlan}
    (items : HasPlannedItems plan state) {original : CollectionRequest} {index : ℕ}
    (isRequest : plan.requests[index]? = some original) (iteration : ℕ) (patch : ItemPatch) :
    Passes iteration (fun between => between = index) state
      (state.updateLiveItem ⟨iteration + 1, index, original.id⟩ (some .skipped) patch) := by
  have identified : ∀ item ∈ state.liveItems, item.key.iteration = iteration + 1 →
      item.key.index = index → item.key = ⟨iteration + 1, index, original.id⟩ := by
    intro item mem inIteration isIndex
    rcases items.planned _ (List.mem_map_of_mem mem) with ⟨number, place, request, isPlanned, eq⟩
    rw [eq] at inIteration isIndex
    dsimp only at inIteration isIndex
    rw [isIndex, isRequest, Option.some.injEq] at isPlanned
    rw [eq, inIteration, isIndex, isPlanned]
  refine ⟨?_, updateLiveItem_results .., updateLiveItem_visits .., updateLiveItem_scopes ..,
    updateLiveItem_clock .., (unstopped_updateLiveItem ..).mpr⟩
  unfold RunnerState.updateLiveItem
  split
  case isTrue =>
    have isKey : (⟨iteration + 1, index, original.id⟩ : ItemKey).iteration = iteration + 1 := rfl
    exact passesItems_updateFirst items.nodup isKey identified fun item =>
      ⟨(rfl : (patch.apply item).key = item.key), rfl⟩
  case isFalse missing =>
    apply List.forall₂_same.mpr
    intro item mem
    apply PassesItem.refl
    rintro ⟨inIteration, isIndex, _⟩
    exact missing ⟨item, mem, identified item mem inIteration isIndex⟩

end Passes

/-! ## Seeking -/

section Seeking

variable {plan : RunnerPlan} {callbacks : RunnerCallbacks} {iteration : ℕ}
  {iterationData : Variables} {state final : RunnerState}

theorem runSteps_outOfRange {stepsLeft index : ℕ} {target : Text}
    (outOfRange : plan.requests[index]? = none) :
    runSteps plan callbacks iteration iterationData stepsLeft index target state =
      (false, state) := by
  unfold runSteps
  split <;> rw [outOfRange]

theorem not_designates_of_le {target : Text} {index later : ℕ}
    (outOfRange : plan.requests[index]? = none) (le : index ≤ later) :
    ¬ Designates plan target later := by
  rintro ⟨request, isRequest, _⟩
  have inRange := (List.getElem?_eq_some_iff.mp isRequest).1
  rw [List.getElem?_eq_none_iff] at outOfRange
  omega

theorem passes_outOfRange {index : ℕ} (items : HasPlannedItems plan state)
    (outOfRange : plan.requests[index]? = none) :
    Passes iteration (fun between => index ≤ between) state state := by
  apply Passes.refl
  rintro item mem ⟨_, le, _⟩
  have inRange := items.inRange mem
  rw [List.getElem?_eq_none_iff] at outOfRange
  omega

/-- With a target the runner passes over the items up to the one that is meant, or over all that
are left. -/
theorem runSteps_seek {target : Text} (notEmpty : target ≠ []) (stepsLeft index : ℕ)
    (items : HasPlannedItems plan state)
    (ran : runSteps plan callbacks iteration iterationData stepsLeft index target state =
      (false, final)) :
    (∃ next stepsAfter passed, stepsAfter ≤ stepsLeft ∧ index ≤ next ∧
        Designates plan target next ∧
        (∀ between, index ≤ between → between < next → ¬ Designates plan target between) ∧
        Passes iteration (fun between => index ≤ between ∧ between < next) state passed ∧
        runSteps plan callbacks iteration iterationData stepsAfter next target passed =
          (false, final)) ∨
      ((∀ later, index ≤ later → ¬ Designates plan target later) ∧
        Passes iteration (fun between => index ≤ between) state final) := by
  induction stepsLeft generalizing index state with
  | zero =>
      cases isRequest : plan.requests[index]? with
      | none =>
          rw [runSteps_outOfRange isRequest, Prod.mk.injEq] at ran
          rw [← ran.2]
          exact Or.inr ⟨fun later => not_designates_of_le isRequest,
            passes_outOfRange items isRequest⟩
      | some original =>
          unfold runSteps at ran
          rw [isRequest] at ran
          cases ran
  | succ stepsLeft ih =>
      cases isRequest : plan.requests[index]? with
      | none =>
          rw [runSteps_outOfRange isRequest, Prod.mk.injEq] at ran
          rw [← ran.2]
          exact Or.inr ⟨fun later => not_designates_of_le isRequest,
            passes_outOfRange items isRequest⟩
      | some original =>
          by_cases designated : Designates plan target index
          · refine Or.inl ⟨index, stepsLeft + 1, state, le_refl _, le_refl _, designated, ?_, ?_,
              ran⟩
            · intro between le lt
              omega
            · apply Passes.refl
              rintro item _ ⟨_, ⟨le, lt⟩, _⟩
              omega
          · have notMatched : matchesNextRequest plan original index target = false := by
              rw [← Bool.not_eq_true, matchesNextRequest_iff isRequest]
              exact designated
            unfold runSteps at ran
            rw [isRequest] at ran
            dsimp only at ran
            rw [if_pos ⟨notEmpty, notMatched⟩] at ran
            have stepped : HasPlannedItems plan (state.emit (.step iteration)) :=
              items.of_keys rfl
            have skips := stepped.passes_updateLiveItem isRequest iteration
              { errorMessage :=
                  some (some ("Skipped while seeking '".toList ++ target ++ "'.".toList)) }
            have skips : Passes iteration (fun between => between = index) state _ :=
              ⟨skips.items, skips.results, skips.visits, skips.scopes, skips.clock,
                fun unstopped => skips.unstopped ((unstopped_emit _ _).mpr unstopped)⟩
            rcases ih (index + 1) (items.of_keys skips.keys) ran with
              ⟨next, stepsAfter, passed, fewer, le, isNext, noneBefore, passes, later⟩ |
                ⟨noLater, passes⟩
            · refine Or.inl ⟨next, stepsAfter, passed, by omega, by omega, isNext, ?_, ?_, later⟩
              · intro between isBehind isBefore
                rcases Nat.eq_or_lt_of_le isBehind with rfl | isLater
                · exact designated
                · exact noneBefore between isLater isBefore
              · apply skips.trans _ passes
                intro between
                omega
            · refine Or.inr ⟨?_, ?_⟩
              · intro later isBehind
                rcases Nat.eq_or_lt_of_le isBehind with rfl | isLater
                · exact designated
                · exact noLater later isLater
              · apply skips.trans _ passes
                intro between
                omega

theorem Designates.inRange {target : Text} {index : ℕ}
    (designated : Designates plan target index) : index < plan.requests.length := by
  rcases designated with ⟨request, isRequest, _⟩
  exact (List.getElem?_eq_some_iff.mp isRequest).1

/-- What happens between a visit and the next one. -/
theorem runSteps_follows {target : Text} {stepsLeft index : ℕ} {original : CollectionRequest}
    (items : HasPlannedItems plan state) (isRequest : plan.requests[index]? = some original)
    (ran : (if target = [] ∨ matchesNextRequest plan original index target = false then
        runSteps plan callbacks iteration iterationData stepsLeft (index + 1) target state
      else runSteps plan callbacks iteration iterationData stepsLeft index target state) =
        (false, final)) :
    (∃ next stepsAfter passed, Follows plan index target (some next) ∧
        next < plan.requests.length ∧ (target = [] ∨ Designates plan target next) ∧
        Passes iteration (PassedOver index (some next)) state passed ∧ stepsAfter ≤ stepsLeft ∧
        runSteps plan callbacks iteration iterationData stepsAfter next target passed =
          (false, final)) ∨
      (Follows plan index target none ∧ Passes iteration (PassedOver index none) state final) := by
  have isBetween : ∀ next between, PassedOver index (some next) between ↔
      index + 1 ≤ between ∧ between < next := by
    intro next between
    simp [PassedOver]
  have isBehind : ∀ between, PassedOver index none between ↔ index + 1 ≤ between := by
    intro between
    simp [PassedOver]
  by_cases isEmpty : target = []
  · subst isEmpty
    rw [if_pos (Or.inl rfl)] at ran
    by_cases more : index + 1 < plan.requests.length
    · refine Or.inl ⟨index + 1, stepsLeft, state, .inOrder more, more, Or.inl rfl, .refl ?_,
        le_refl _, ran⟩
      rintro item _ ⟨_, passed, _⟩
      rw [isBetween] at passed
      omega
    · have outOfRange : plan.requests[index + 1]? = none :=
        List.getElem?_eq_none (Nat.not_lt.mp more)
      rw [runSteps_outOfRange outOfRange, Prod.mk.injEq] at ran
      rw [← ran.2]
      refine Or.inr ⟨.ends (Nat.not_lt.mp more), ?_⟩
      apply (passes_outOfRange items outOfRange).congr
      exact fun between => (isBehind between).symm
  · by_cases itself : Designates plan target index
    · have isMatch := (matchesNextRequest_iff isRequest target).mpr itself
      rw [if_neg (by simp [isEmpty, isMatch])] at ran
      refine Or.inl ⟨index, stepsLeft, state, .again isEmpty itself, itself.inRange,
        Or.inr itself, .refl ?_, le_refl _, ran⟩
      rintro item _ ⟨_, passed, _⟩
      rw [isBetween] at passed
      omega
    · have noMatch : matchesNextRequest plan original index target = false := by
        rw [← Bool.not_eq_true, matchesNextRequest_iff isRequest]
        exact itself
      rw [if_pos (Or.inr noMatch)] at ran
      rcases runSteps_seek isEmpty stepsLeft (index + 1) items ran with
        ⟨next, stepsAfter, passed, fewer, le, isNext, noneBefore, passes, later⟩ |
          ⟨noLater, passes⟩
      · refine Or.inl ⟨next, stepsAfter, passed, ?_, isNext.inRange, Or.inr isNext, ?_, fewer,
          later⟩
        · exact .later isEmpty itself le isNext noneBefore
        · exact passes.congr fun between => (isBetween next between).symm
      · refine Or.inr ⟨.nowhere isEmpty itself noLater, ?_⟩
        exact passes.congr fun between => (isBehind between).symm

end Seeking

/-! ## The flow -/

/-- An item is executed in a state that nothing has stopped, and its last attempt decides about
the target. -/
structure Executes (plan : RunnerPlan) (callbacks : RunnerCallbacks) (visiting : Visiting)
    (target : Text) (state after : RunnerState) : Prop where
  visits : visitItem plan callbacks visiting state = ((false, target), after)
  unstopped : Unstopped state
  target : ∃ attempts made earlier started ended,
    after.visits = state.visits ++ [⟨visiting.key, attempts⟩] ∧
      LastAttempt plan callbacks visiting state attempts attempts.length target ended made earlier
        started

/-- An iteration from the item that is executed next, as it is reported in the end. -/
inductive IterationFlow (plan : RunnerPlan) (callbacks : RunnerCallbacks)
    (reported : List LiveItem) (iteration : ℕ) : Option ℕ → RunnerState → RunnerState → Prop where
  | ends (state : RunnerState) :
      IterationFlow plan callbacks reported iteration none state state
  | executes {index : ℕ} {original : CollectionRequest} {target : Text} {next : Option ℕ}
      {state executed passed final : RunnerState}
      (isRequest : plan.requests[index]? = some original)
      (executes : Executes plan callbacks
        ⟨⟨iteration + 1, index, original.id⟩, original, dataRow plan iteration⟩ target
        (state.emit (.step iteration)).tick.tick executed)
      (follows : Follows plan index target next)
      (passes : Passes iteration (PassedOver index next) executed passed)
      (kept : Keeps passed.liveItems reported)
      (rest : IterationFlow plan callbacks reported iteration next passed final) :
      IterationFlow plan callbacks reported iteration (some index) state final

/-- The item with which an iteration starts, if there is one. -/
def firstItem (plan : RunnerPlan) : Option ℕ :=
  if 0 < plan.requests.length then some 0 else none

/-- A run: every iteration starts with the first item, and without a target. -/
inductive RunFlow (plan : RunnerPlan) (callbacks : RunnerCallbacks) (reported : List LiveItem) :
    List ℕ → RunnerState → RunnerState → Prop where
  | ends (state : RunnerState) : RunFlow plan callbacks reported [] state state
  | iterates {iteration : ℕ} {iterations : List ℕ} {state middle final : RunnerState}
      (flow : IterationFlow plan callbacks reported iteration (firstItem plan) state middle)
      (rest : RunFlow plan callbacks reported iterations middle final) :
      RunFlow plan callbacks reported (iteration :: iterations) state final

section Flow

variable {plan : RunnerPlan} {callbacks : RunnerCallbacks} {iteration : ℕ}
  {state final : RunnerState}

theorem Passes.keeps {within : ℕ → Prop} {after : RunnerState}
    (passes : Passes iteration within state after) : Keeps state.liveItems after.liveItems := by
  apply passes.items.imp
  intro item later passesItem
  refine ⟨passesItem.key, fun finished => passesItem.others ?_⟩
  rintro ⟨_, _, unfinished⟩
  rw [finished] at unfinished
  cases unfinished

theorem visitItem_executes (uninterrupted : Uninterrupted callbacks) (unstopped : Unstopped state)
    (nodup : (state.liveItems.map LiveItem.key).Nodup) {visiting : Visiting}
    (planned : IsPlanned plan visiting) {target : Text} {after : RunnerState}
    (visits : visitItem plan callbacks visiting state = ((false, target), after)) :
    Executes plan callbacks visiting target state after := by
  refine ⟨visits, unstopped, ?_⟩
  have spec := runAttempts_spec unstopped (uninterrupted.calm state.events) nodup planned
    (plan.retries + 1) (show 1 ≤ plan.retries + 1 by omega) []
  unfold visitItem at visits
  rcases attemptsEq : runAttempts plan callbacks visiting (plan.retries + 1) 1 [] state with
    ⟨⟨finished, next, attempts⟩, tried⟩
  rw [attemptsEq] at spec visits
  dsimp only at spec visits
  have isFinished : finished = true := by
    by_contra unfinished
    rw [Bool.not_eq_true] at unfinished
    have bound := spec.unfinished unfinished
    omega
  rw [isFinished] at attemptsEq visits
  split at visits
  · cases visits
  · split at visits
    · cases visits
    · cases visits
      rcases runAttempts_target uninterrupted visiting (plan.retries + 1) 1 [] attemptsEq with
        ⟨number, made, earlier, started, numbered, last⟩
      have isNumber : number = attempts.length := by omega
      rw [isNumber] at last
      refine ⟨attempts, made, earlier, started, tried, ?_, last⟩
      rw [spec.visits]

/-- What the steps of an iteration make of a state. -/
structure StepsFlow (plan : RunnerPlan) (callbacks : RunnerCallbacks) (iteration : ℕ)
    (item : Option ℕ) (state final : RunnerState) : Prop where
  keeps : Keeps state.liveItems final.liveItems
  unstopped : Unstopped final
  flow : ∀ reported, Keeps final.liveItems reported →
    IterationFlow plan callbacks reported iteration item state final

/-- One visit after the other, until no item follows. The induction is on the steps that are
left, and takes the items passed over between two visits at once. -/
theorem runSteps_flow (uninterrupted : Uninterrupted callbacks) (stepsLeft : ℕ) {index : ℕ}
    {target : Text} (unstopped : Unstopped state) (items : HasPlannedItems plan state)
    (isNext : target = [] ∨ Designates plan target index)
    (inRange : index < plan.requests.length)
    (ran : runSteps plan callbacks iteration (dataRow plan iteration) stepsLeft index target state =
      (false, final)) :
    StepsFlow plan callbacks iteration (some index) state final := by
  induction stepsLeft using Nat.strong_induction_on generalizing index target state with
  | h stepsLeft ih =>
      have isRequest := List.getElem?_eq_getElem inRange
      generalize plan.requests[index] = original at isRequest
      cases stepsLeft with
      | zero =>
          unfold runSteps at ran
          rw [isRequest] at ran
          cases ran
      | succ stepsLeft =>
          unfold runSteps at ran
          rw [isRequest] at ran
          dsimp only at ran
          have goesOn : ¬ (target ≠ [] ∧
              matchesNextRequest plan original index target = false) := by
            rintro ⟨notEmpty, noMatch⟩
            rcases isNext with isEmpty | designated
            · exact notEmpty isEmpty
            · rw [← matchesNextRequest_iff isRequest, noMatch] at designated
              cases designated
          rw [if_neg goesOn, uninterrupted.notCancelled, uninterrupted.notSkipped] at ran
          simp only [Bool.false_eq_true, if_false] at ran
          generalize steppedEq : (state.emit (.step iteration)).tick.tick = stepped at ran
          have steppedUnstopped : Unstopped stepped := by
            rw [← steppedEq]
            simpa using unstopped
          have steppedKeys : stepped.liveItems.map LiveItem.key =
              state.liveItems.map LiveItem.key := by
            rw [← steppedEq]
            rfl
          have steppedItems := items.of_keys steppedKeys
          have planned : IsPlanned plan ⟨⟨iteration + 1, index, original.id⟩, original,
              dataRow plan iteration⟩ := ⟨isRequest, rfl⟩
          have spec := visitItem_spec steppedUnstopped (uninterrupted.calm stepped.events)
            steppedItems.nodup planned
          split at ran
          case h_1 => cases ran
          case h_2 named executed visitEq =>
            rw [visitEq] at spec
            have executedUnstopped := (spec.goesOn rfl).1
            have visitKeeps := keeps_of_visitMoves spec.moves
            have executedItems := steppedItems.of_keys visitKeeps.keys
            have executes := visitItem_executes uninterrupted steppedUnstopped
              steppedItems.nodup planned visitEq
            rw [← steppedEq] at visitKeeps executes
            rcases runSteps_follows executedItems isRequest ran with
              ⟨next, stepsAfter, passed, follows, nextInRange, isNext, passes, fewer, later⟩ |
                ⟨follows, passes⟩
            · have rest := ih stepsAfter (Nat.lt_succ_of_le fewer)
                (passes.unstopped executedUnstopped) (executedItems.of_keys passes.keys) isNext
                nextInRange later
              refine ⟨(visitKeeps.trans passes.keeps).trans rest.keeps, rest.unstopped, ?_⟩
              intro reported kept
              exact .executes isRequest executes follows passes (rest.keeps.trans kept)
                (rest.flow reported kept)
            · refine ⟨visitKeeps.trans passes.keeps, passes.unstopped executedUnstopped, ?_⟩
              intro reported kept
              exact .executes isRequest executes follows passes kept (.ends final)

theorem runSteps_flow_first (uninterrupted : Uninterrupted callbacks) (stepsLeft : ℕ)
    (unstopped : Unstopped state) (items : HasPlannedItems plan state)
    (ran : runSteps plan callbacks iteration (dataRow plan iteration) stepsLeft 0 [] state =
      (false, final)) :
    StepsFlow plan callbacks iteration (firstItem plan) state final := by
  unfold firstItem
  split
  case isTrue inRange =>
    exact runSteps_flow uninterrupted stepsLeft unstopped items (Or.inl rfl) inRange ran
  case isFalse empty =>
    rw [runSteps_outOfRange (List.getElem?_eq_none (Nat.not_lt.mp empty)), Prod.mk.injEq] at ran
    rw [← ran.2]
    exact ⟨Keeps.refl _, unstopped, fun _ _ => .ends state⟩

theorem not_unstopped_of_visitItem {visiting : Visiting} {target : Text} {after : RunnerState}
    (visits : visitItem plan callbacks visiting state = ((true, target), after)) :
    ¬ Unstopped after := by
  intro unstopped
  unfold visitItem at visits
  dsimp only at visits
  split at visits
  case isTrue bailed =>
    cases visits
    rw [unstopped.notBailed] at bailed
    cases bailed
  case isFalse =>
    split at visits
    case isTrue cancelled =>
      cases visits
      have notCancelled := unstopped.notCancelled
      rw [(finishUnfinished_flags _ _ _).2.2] at notCancelled
      rw [notCancelled] at cancelled
      cases cancelled
    case isFalse => split at visits <;> cases visits

/-- An iteration that does not go through has been stopped. -/
theorem not_unstopped_of_runSteps {stepsLeft index : ℕ} {target : Text}
    (ran : runSteps plan callbacks iteration (dataRow plan iteration) stepsLeft index target state =
      (true, final)) : ¬ Unstopped final := by
  induction stepsLeft generalizing index target state with
  | zero =>
      unfold runSteps at ran
      split at ran
      · cases ran
      · intro unstopped
        cases ran
        have noFlowError := unstopped.noFlowError
        unfold exceedLimit at noFlowError
        rw [(finishUnfinished_flags _ _ _).1, (updateLiveItem_flags _ _ _ _).1] at noFlowError
        cases noFlowError
  | succ stepsLeft ih =>
      unfold runSteps at ran
      split at ran
      case h_1 => cases ran
      case h_2 =>
        dsimp only at ran
        split at ran
        case isTrue => exact ih ran
        case isFalse =>
          split at ran
          case isTrue =>
            intro unstopped
            cases ran
            have notCancelled := unstopped.notCancelled
            rw [(finishUnfinished_flags _ _ _).2.2] at notCancelled
            cases notCancelled
          case isFalse =>
            split at ran
            case isTrue => exact ih ran
            case isFalse =>
              split at ran
              case h_1 visitEq =>
                cases ran
                exact not_unstopped_of_visitItem visitEq
              case h_2 =>
                split at ran
                · exact ih ran
                · exact ih ran

theorem runIterations_flow (uninterrupted : Uninterrupted callbacks) (iterations : List ℕ)
    (unstopped : Unstopped state) (items : HasPlannedItems plan state)
    (finalUnstopped : Unstopped (runIterations plan callbacks iterations state)) :
    Keeps state.liveItems (runIterations plan callbacks iterations state).liveItems ∧
      ∀ reported, Keeps (runIterations plan callbacks iterations state).liveItems reported →
        RunFlow plan callbacks reported iterations state
          (runIterations plan callbacks iterations state) := by
  induction iterations generalizing state with
  | nil => exact ⟨Keeps.refl _, fun _ _ => .ends state⟩
  | cons iteration iterations ih =>
      unfold runIterations at finalUnstopped ⊢
      rcases stepsEq : runSteps plan callbacks iteration (dataRow plan iteration)
        plan.flowStepLimit 0 [] state with ⟨stopped, middle⟩
      rw [stepsEq] at finalUnstopped
      cases stopped with
      | true => exact absurd finalUnstopped (not_unstopped_of_runSteps stepsEq)
      | false =>
          have steps := runSteps_flow_first uninterrupted _ unstopped items stepsEq
          rcases ih steps.unstopped (items.of_keys steps.keeps.keys) finalUnstopped with
            ⟨keeps, flow⟩
          refine ⟨steps.keeps.trans keeps, fun reported kept => ?_⟩
          exact .iterates (steps.flow reported (keeps.trans kept)) (flow reported kept)

end Flow

/-- A run ends without a cancellation, a bail or an error of its flow. -/
structure GoesThrough (report : RunnerReport) : Prop where
  notCancelled : report.cancelled = false
  notBailed : report.bailed = false
  noFlowError : report.flowError = none

/-- A run that nothing stops executes the items that its targets mean, one after the other, and
skips those it passes over. -/
theorem runCollection_flow {parse : Text → Option JsonTree} {isPattern : Text → Bool}
    {collection : Collection} {environment : Environment} {options : RunnerOptions}
    {callbacks : RunnerCallbacks} (uninterrupted : Uninterrupted callbacks)
    {report : RunnerReport}
    (ran : runCollection parse isPattern collection environment options callbacks = some report)
    (goesThrough : GoesThrough report) :
    ∃ final, report = runnerReport (runnerPlan parse collection environment options) final ∧
      RunFlow (runnerPlan parse collection environment options) callbacks report.liveItems
        (List.range (runnerPlan parse collection environment options).iterations)
        (initialState parse collection environment options) final := by
  unfold runCollection at ran
  split at ran
  case isFalse => cases ran
  case isTrue =>
    cases ran
    have before := initialState_before parse collection environment options
    rcases runIterations_flow uninterrupted _ before.unstopped ⟨before.nodup, before.keys⟩
      ⟨goesThrough.notCancelled, goesThrough.notBailed, goesThrough.noFlowError⟩ with ⟨_, flow⟩
    exact ⟨_, rfl, flow _ (Keeps.refl _)⟩

/-! ## A jump -/

def namedRequest (name script : Text) : CollectionRequest :=
  { spacedRequest with id := name, name, folderId := [], preRequestScript := script }

/-- The first request names the third one in its script. -/
def jumpCollection : Collection :=
  { spacedCollection with
    folders := []
    requests := [namedRequest ['a'] ['j'], namedRequest ['b'] [], namedRequest ['c'] []] }

def jumpCallbacks : RunnerCallbacks :=
  { plainCallbacks with
    executeScript := fun _ call =>
      .ok { unchanged call with
        execution := some ⟨if call.script = ['j'] then some ['c'] else none, false⟩ } }

theorem jump_skips :
    ∃ report, runCollection (fun _ => none) (fun _ => true) jumpCollection bareEnvironment
        onceOptions jumpCallbacks = some report ∧
      report.liveItems.map LiveItem.status = [.completed, .skipped, .completed] ∧
      ∃ final, report = runnerReport (runnerPlan (fun _ => none) jumpCollection bareEnvironment
          onceOptions) final ∧
        RunFlow (runnerPlan (fun _ => none) jumpCollection bareEnvironment onceOptions)
          jumpCallbacks report.liveItems [0]
          (initialState (fun _ => none) jumpCollection bareEnvironment onceOptions) final := by
  have uninterrupted : Uninterrupted jumpCallbacks :=
    ⟨fun _ => rfl, fun _ _ => rfl, fun _ => rfl, fun _ => rfl⟩
  have goesThrough : GoesThrough (runnerReport
      (runnerPlan (fun _ => none) jumpCollection bareEnvironment onceOptions)
      (finalState (fun _ => none) jumpCollection bareEnvironment onceOptions jumpCallbacks)) :=
    ⟨by decide, by decide, by decide⟩
  have ran : runCollection (fun _ => none) (fun _ => true) jumpCollection bareEnvironment
      onceOptions jumpCallbacks = some (runnerReport _ _) := rfl
  exact ⟨_, ran, by decide, runCollection_flow uninterrupted ran goesThrough⟩

end Brunomnia.Runner
