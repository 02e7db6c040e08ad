import Brunomnia.McpStdio.RegistrySafety

/-!
# Runs of the registry

Every step of a call or a close brings it nearer to its end, where it holds nothing, so that a
session that it holds is closed or stays registered. A call that failed removes an entry only if
it leads to the session that the call was executed on. That session may be one that an earlier
call opened, since sessions are reused.
-/

namespace Brunomnia.McpStdio.Registry

open Library

variable {system : System}

/-! ## What is expected of a step -/

def CallPhase.remaining : CallPhase → ℕ
  | .lookingUp => 8
  | .closingPrevious _ => 7
  | .opening => 6
  | .initializing _ => 5
  | .registering _ => 4
  | .closingReplaced _ _ => 3
  | .executing _ => 2
  | .removing _ => 1
  | .ended => 0

/-- The most steps that a call or a close still takes. -/
def Task.remaining : Task → ℕ
  | .call _ phase => phase.remaining
  | .close _ .taking => 2
  | .close _ (.closing _) => 1
  | .close _ .ended => 0

def System.Advances (system : System) (action : Action) : Prop :=
  ∀ number outcome task, action = .advance number outcome → system.tasks[number]? = some task →
    ∃ after, (system.step action).tasks[number]? = some after ∧
      (after.remaining < task.remaining ∨ task.remaining = 0)

/-- A failed call takes out no entry but that of the session that it was executed on. -/
structure System.RemovesExecuted (system : System) (action : Action) : Prop where
  only : ∀ number outcome input session, action = .advance number outcome →
    system.tasks[number]? = some (.call input (.removing session)) →
    ∀ sessionKey entry, system.sessions.read sessionKey = some entry →
      (system.step action).sessions.read sessionKey = some entry ∨
        sessionKey = input.sessionKey ∧ entry.session = session
  executed : ∀ (number : ℕ) (input : McpStdioInput) (session : ℕ),
    (system.step action).tasks[number]? = some (Task.call input (.removing session)) →
      system.tasks[number]? = some (Task.call input (.executing session)) ∨
        system.tasks[number]? = some (Task.call input (.removing session))

/-- A failed call takes out no entry but that of a session that it opened itself. -/
def System.RemovesOpened (system : System) (action : Action) : Prop :=
  ∀ number outcome input session, action = .advance number outcome →
    system.tasks[number]? = some (.call input (.removing session)) →
    ∀ sessionKey entry, system.sessions.read sessionKey = some entry →
      (system.step action).sessions.read sessionKey = some entry ∨
        ∃ process, system.processes[entry.session]? = some process ∧ process.openedBy = number

/-! ## How a task goes on -/

/-- The task that comes after a task in its own step. -/
structure Task.Follows (before after : Task) : Prop where
  nearer : after.remaining < before.remaining ∨ before.remaining = 0
  executed : ∀ input session, after = .call input (.removing session) →
    before = .call input (.executing session) ∨ before = after

theorem drop_tasks (session : ℕ) : (system.drop session).tasks = system.tasks := by
  rw [System.drop]
  split <;> rfl

theorem drop_sessions (session : ℕ) : (system.drop session).sessions = system.sessions := by
  rw [System.drop]
  split <;> rfl

theorem foldl_drop (held : List ℕ) :
    (held.foldl System.drop system).tasks = system.tasks ∧
      (held.foldl System.drop system).sessions = system.sessions := by
  induction held generalizing system with
  | nil => exact ⟨rfl, rfl⟩
  | cons session held ih =>
      rw [List.foldl_cons, ih.1, ih.2]
      exact ⟨drop_tasks session, drop_sessions session⟩

@[simp]
theorem finish_tasks (number : ℕ) (task : Task) (held : List ℕ) :
    (system.finish number task held).tasks = system.tasks.set number task :=
  (foldl_drop held).1

@[simp]
theorem finish_sessions (number : ℕ) (task : Task) (held : List ℕ) :
    (system.finish number task held).sessions = system.sessions :=
  (foldl_drop held).2

@[simp]
theorem setTask_tasks (number : ℕ) (task : Task) :
    (system.setTask number task).tasks = system.tasks.set number task := rfl

@[simp]
theorem remove_tasks (sessionKey : String) : (system.remove sessionKey).tasks = system.tasks := rfl

@[simp]
theorem insert_tasks (sessionKey : String) (entry : SessionEntry) :
    (system.insert sessionKey entry).tasks = system.tasks := rfl

@[simp]
theorem start_tasks (process : Process) : (system.start process).tasks = system.tasks := rfl

@[simp]
theorem close_tasks (session : ℕ) : (system.close session).tasks = system.tasks := rfl

theorem follows_close {before : Task} {sessionKey : String} {phase : ClosePhase}
    (nearer : (Task.close sessionKey phase).remaining < before.remaining ∨
      before.remaining = 0) : before.Follows (.close sessionKey phase) := by
  refine ⟨nearer, ?_⟩
  intro input session isRemoving
  cases isRemoving

theorem set_self {Item : Type*} {items : List Item} {number : ℕ} {item : Item}
    (found : items[number]? = some item) : items.set number item = items := by
  apply List.ext_getElem?
  intro other
  by_cases same : number = other
  · rw [← same, List.getElem?_set_self (List.getElem?_eq_some_iff.mp found).1, found]
  · rw [List.getElem?_set_ne same]

theorem advanceCall_follows {number : ℕ} {input : McpStdioInput} {phase : CallPhase}
    {outcome : System.Outcome} (found : system.tasks[number]? = some (.call input phase)) :
    ∃ after, (system.advanceCall number input outcome phase).tasks =
      system.tasks.set number after ∧ Task.Follows (.call input phase) after := by
  have goes {next : CallPhase} (nearer : next.remaining < phase.remaining)
      (notRemoving : ∀ session, next ≠ .removing session) :
      Task.Follows (.call input phase) (.call input next) := by
    refine ⟨.inl nearer, ?_⟩
    intro other session isRemoving
    cases isRemoving
    exact absurd rfl (notRemoving session)
  have next {after : System} (next : CallPhase)
      (isNext : after.tasks = system.tasks.set number (.call input next))
      (nearer : next.remaining < phase.remaining)
      (notRemoving : ∀ session, next ≠ .removing session) :
      ∃ task, after.tasks = system.tasks.set number task ∧
        Task.Follows (.call input phase) task :=
    ⟨_, isNext, goes nearer notRemoving⟩
  cases phase with
  | lookingUp =>
      simp only [System.advanceCall, System.lookUp]
      split
      · split
        · split
          · exact next (.executing _) rfl (by simp [CallPhase.remaining]) (by simp)
          · exact next (.closingPrevious _) rfl (by simp [CallPhase.remaining]) (by simp)
        · split
          · exact next .ended rfl (by simp [CallPhase.remaining]) (by simp)
          · exact next .opening rfl (by simp [CallPhase.remaining]) (by simp)
      · exact next .ended rfl (by simp [CallPhase.remaining]) (by simp)
  | closingPrevious previous =>
      simp only [System.advanceCall, System.closePrevious]
      split
      · exact next .opening (by simp) (by simp [CallPhase.remaining]) (by simp)
      · exact next .ended (by simp) (by simp [CallPhase.remaining]) (by simp)
  | opening =>
      simp only [System.advanceCall, System.spawn]
      split
      · exact next (.initializing _) rfl (by simp [CallPhase.remaining]) (by simp)
      · exact next .ended rfl (by simp [CallPhase.remaining]) (by simp)
  | initializing opened =>
      simp only [System.advanceCall, System.waitInitialized]
      split
      · exact next (.registering _) rfl (by simp [CallPhase.remaining]) (by simp)
      · exact next .ended (by simp) (by simp [CallPhase.remaining]) (by simp)
  | registering opened =>
      simp only [System.advanceCall, System.register]
      split
      · split
        · split
          · exact next (.closingReplaced _ _) rfl (by simp [CallPhase.remaining]) (by simp)
          · exact next (.closingReplaced _ _) rfl (by simp [CallPhase.remaining]) (by simp)
        · split
          · exact next .ended (by simp) (by simp [CallPhase.remaining]) (by simp)
          · exact next (.executing _) rfl (by simp [CallPhase.remaining]) (by simp)
      · exact next .ended (by simp) (by simp [CallPhase.remaining]) (by simp)
  | closingReplaced active replaced =>
      simp only [System.advanceCall, System.closeReplaced]
      split
      · exact next (.executing active) (by simp) (by simp [CallPhase.remaining]) (by simp)
      · exact next .ended (by simp) (by simp [CallPhase.remaining]) (by simp)
  | executing session =>
      simp only [System.advanceCall, System.execute]
      split
      · split
        · exact next .ended (by simp) (by simp [CallPhase.remaining]) (by simp)
        · refine ⟨_, rfl, .inl (by decide : 1 < 2), ?_⟩
          intro other removed isRemoving
          cases isRemoving
          exact .inl rfl
      · exact next .ended (by simp) (by simp [CallPhase.remaining]) (by simp)
  | removing session =>
      simp only [System.advanceCall, System.removeIfSame]
      split
      · exact next .ended (by simp) (by simp [CallPhase.remaining]) (by simp)
      · exact next .ended (by simp) (by simp [CallPhase.remaining]) (by simp)
  | ended =>
      refine ⟨_, (set_self found).symm, .inr rfl, ?_⟩
      intro other session isRemoving
      cases isRemoving

theorem advanceClose_follows {number : ℕ} {sessionKey : String} {phase : ClosePhase}
    {outcome : System.Outcome} (found : system.tasks[number]? = some (.close sessionKey phase)) :
    ∃ after, (system.advanceClose number outcome sessionKey phase).tasks =
      system.tasks.set number after ∧ Task.Follows (.close sessionKey phase) after := by
  cases phase with
  | taking =>
      simp only [System.advanceClose, System.take]
      split
      · split
        · exact ⟨_, rfl, follows_close (.inl (by decide : 1 < 2))⟩
        · exact ⟨_, rfl, follows_close (.inl (by decide : 0 < 2))⟩
      · exact ⟨_, rfl, follows_close (.inl (by decide : 0 < 2))⟩
  | closing session =>
      refine ⟨.close sessionKey .ended, ?_, follows_close (.inl (by decide : 0 < 1))⟩
      simp only [System.advanceClose, System.closeTaken]
      split_ifs <;> simp
  | ended => exact ⟨_, (set_self found).symm, follows_close (.inr rfl)⟩

theorem advance_follows {number : ℕ} {outcome : System.Outcome} {task : Task}
    (found : system.tasks[number]? = some task) :
    ∃ after, (system.step (.advance number outcome)).tasks = system.tasks.set number after ∧
      task.Follows after := by
  cases task with
  | call input phase =>
      simp only [System.step, found]
      exact advanceCall_follows found
  | close sessionKey phase =>
      simp only [System.step, found]
      exact advanceClose_follows found

theorem found_of_begun {tasks : List Task} {begun task : Task} (different : task ≠ begun)
    {number : ℕ} (found : (tasks ++ [begun])[number]? = some task) :
    tasks[number]? = some task := by
  rw [List.getElem?_append] at found
  split at found
  · exact found
  · rcases List.mem_singleton.mp (List.mem_of_getElem? found) with rfl
    exact absurd rfl different

theorem advances (system : System) (action : Action) : system.Advances action := by
  rintro number outcome task rfl found
  rcases @advance_follows _ _ outcome _ found with ⟨after, isAfter, follows⟩
  refine ⟨after, ?_, follows.nearer⟩
  rw [isAfter, List.getElem?_set_self (List.getElem?_eq_some_iff.mp found).1]

/-! ## What a failed call takes out -/

theorem removesExecuted (system : System) (action : Action) : system.RemovesExecuted action where
  only := by
    rintro number outcome input session rfl found sessionKey entry registered
    simp only [System.step, found, System.advanceCall, System.removeIfSame]
    split_ifs
    case pos same =>
        by_cases isKey : sessionKey = input.sessionKey
        · rw [isKey] at registered
          rw [registered, Option.any_some, decide_eq_true_eq] at same
          exact .inr ⟨isKey, same.2⟩
        · apply Or.inl
          rw [finish_sessions, System.remove, Store.read_remove_of_ne isKey, registered]
    case neg => exact .inl (by rw [finish_sessions, registered])
  executed := by
    intro number input session found
    cases action with
    | advance other outcome =>
        cases present : system.tasks[other]? with
        | none =>
            simp only [System.step, present] at found
            exact .inr found
        | some task =>
            rcases @advance_follows _ _ outcome _ present with ⟨after, isAfter, follows⟩
            rw [isAfter] at found
            by_cases same : other = number
            · rw [← same, List.getElem?_set_self (List.getElem?_eq_some_iff.mp present).1,
                Option.some.injEq] at found
              rw [← same, present, Option.some.injEq, Option.some.injEq]
              rw [← found]
              exact (follows.executed input session found).imp_left id
            · rw [List.getElem?_set_ne same] at found
              exact .inr found
    | call other =>
        simp only [System.step] at found
        split at found
        · exact .inr found
        · exact .inr (found_of_begun (by simp) found)
    | close sessionKey =>
        simp only [System.step] at found
        split at found
        · exact .inr (found_of_begun (by simp) found)
        · exact .inr found
    | transportFails other => exact .inr found

/-! ## Every run -/

/-- In every state of a run the registry keeps its limit, calls are executed on processes of their
own launch, and no process is leaked. Every call and close comes to its end, and a failed call
takes out no entry but that of the session that it was executed on. -/
theorem registry_sound (actions : List Action) :
    EveryState System.step System.empty actions Sound ∧
      EveryStep System.step System.empty actions fun system action =>
        system.Advances action ∧ system.RemovesExecuted action := by
  refine ⟨?_, fun _ _ => ⟨advances _ _, removesExecuted _ _⟩⟩
  have steps : EveryStep System.step System.empty actions fun _ _ => True := fun _ _ => trivial
  have every : EveryState System.step System.empty actions fun system => Kept system [] :=
    EveryState.of_everyStep kept_empty (fun _ action kept _ => kept.step action) steps
  exact fun n inRange => (every n inRange).sound

/-! ## A session of an earlier call -/

def plainInput : McpStdioInput := ⟨"server", [], [], "client"⟩

def smooth : System.Outcome := ⟨true, true, some true, .ok ()⟩

def timedOut : System.Outcome := ⟨true, true, some true, .error "timeout"⟩

/-- A call opens a session, and the next one reuses it and fails. -/
def reusingRun : List Action :=
  [.call plainInput, .advance 0 smooth, .advance 0 smooth, .advance 0 smooth, .advance 0 smooth,
    .advance 0 smooth, .call plainInput, .advance 1 smooth, .advance 1 timedOut,
    .advance 1 smooth]

theorem reused_session_removed :
    ¬ EveryStep System.step System.empty reusingRun System.RemovesOpened := by
  intro every
  rcases every 9 (by decide) 1 smooth plainInput 0 rfl rfl "client"
    ⟨sessionFingerprint plainInput, 0⟩ rfl with kept | ⟨process, found, isOpener⟩
  · cases kept
  · cases found
    cases isOpener

end Brunomnia.McpStdio.Registry
