import Brunomnia.ScimServer.Lifecycle

/-!
# Runs of the SCIM server

Along every run at most one server serves, and it is the registered one; and what is stopped or
superseded has been told to shut down. A registered server stays until it is stopped or superseded
exactly if no earlier server of its workspace cleans up while it is registered.
-/

namespace Brunomnia.ScimServer

open Library

namespace ControlPlane

/-- A task has not been shut down. -/
def IsServing (plane : ControlPlane) (index : ℕ) : Prop :=
  ∃ task, plane.tasks[index]? = some task ∧ task.shutdown = .waiting

/-- The message of a shutdown has been sent to a task. -/
def IsTold (plane : ControlPlane) (index : ℕ) : Prop :=
  ∃ task, plane.tasks[index]? = some task ∧ task.shutdown = .sent

/-- The registry and the tasks agree. -/
structure Consistent (plane : ControlPlane) : Prop where
  registered : ∀ server, plane.runtime.server = some server →
    server.workspaceId = plane.runtime.workspaceId ∧ server.workspaceId ≠ "" ∧
      ∃ task, plane.tasks[server.shutdown]? = some task ∧ task.shutdown = .waiting ∧
        task.workspaceId = server.workspaceId
  alone : ∀ index, plane.IsServing index →
    ∃ server, plane.runtime.server = some server ∧ server.shutdown = index

end ControlPlane

/-- A step stops a server, or synchronizes another workspace than that of the server. -/
def Ends (server : RunningScimServer) (action : Action) : Prop :=
  action = .stop ∨ ∃ input, action = .sync input ∧
    validateWorkspaceId input.workspaceId = .ok () ∧ input.workspaceId ≠ server.workspaceId

/-- An earlier server does not clean up while one of its workspace is registered. -/
def LeavesServer (plane : ControlPlane) (action : Action) : Prop :=
  ∀ index task server, action = .cleanup index → plane.tasks[index]? = some task →
    task.isDue = true → plane.runtime.server = some server →
      server.workspaceId ≠ task.workspaceId

/-! ## Steps -/

section Steps

variable {plane : ControlPlane}

theorem tell_tasks (shutdown : ℕ) (signal : Shutdown) (index : ℕ) :
    (plane.tell shutdown signal).tasks[index]? = plane.tasks[index]?.map fun task =>
      if shutdown = index ∧ task.shutdown = .waiting then { task with shutdown := signal }
      else task := by
  unfold ControlPlane.tell
  dsimp only
  rw [List.getElem?_modify]
  by_cases same : shutdown = index
  · simp [same]
  · simp [same]

theorem not_serving_tell {signal : Shutdown} (signals : signal ≠ .waiting) (shutdown index : ℕ) :
    (plane.tell shutdown signal).IsServing index ↔
      plane.IsServing index ∧ shutdown ≠ index := by
  unfold ControlPlane.IsServing
  rw [tell_tasks]
  cases plane.tasks[index]? with
  | none => simp
  | some task =>
      simp only [Option.map_some, Option.some.injEq, exists_eq_left']
      split
      case isTrue both => simp [both, signals]
      case isFalse other =>
        constructor
        · intro waiting
          exact ⟨waiting, fun same => other ⟨same, waiting⟩⟩
        · exact fun both => both.1

theorem takeServer_of_some {server : RunningScimServer}
    (registered : plane.runtime.server = some server) :
    plane.takeServer =
      ({ plane with runtime := { plane.runtime with server := none } } : ControlPlane).tell
        server.shutdown .sent := by
  rw [ControlPlane.takeServer, registered]

theorem takeServer_of_none (unregistered : plane.runtime.server = none) :
    plane.takeServer = plane := by
  rw [ControlPlane.takeServer, unregistered]

theorem takeServer_runtime :
    plane.takeServer.runtime = { plane.runtime with server := none } := by
  unfold ControlPlane.takeServer
  split
  · rfl
  · next unregistered => rw [← unregistered]

theorem ControlPlane.Consistent.not_serving_takeServer (consistent : plane.Consistent)
    (index : ℕ) : ¬ plane.takeServer.IsServing index := by
  intro serving
  cases registered : plane.runtime.server with
  | none =>
      rw [takeServer_of_none registered] at serving
      rcases consistent.alone index serving with ⟨server, isServer, _⟩
      rw [registered] at isServer
      cases isServer
  | some server =>
      rw [takeServer_of_some registered, not_serving_tell (by decide)] at serving
      rcases consistent.alone index serving.1 with ⟨other, isServer, same⟩
      rw [registered] at isServer
      cases isServer
      exact serving.2 same

end Steps

/-- What a step can do to the registry and the tasks. -/
inductive Effect (plane : ControlPlane) (action : Action) (after : ControlPlane) : Prop where
  | keeps (sameServer : after.runtime.server = plane.runtime.server)
      (sameTasks : after.tasks = plane.tasks)
      (workspace : after.runtime.workspaceId = plane.runtime.workspaceId ∨
        plane.runtime.server = none)
      (goesOn : ∀ server, plane.runtime.server = some server → ¬ Ends server action)
      (leaves : LeavesServer plane action)
  | takes (noServer : after.runtime.server = none) (tasks : after.tasks = plane.takeServer.tasks)
      (ends : ∀ server, plane.runtime.server = some server → Ends server action)
      (leaves : LeavesServer plane action)
  | starts {url : String} (unregistered : plane.runtime.server = none)
      (named : plane.runtime.workspaceId ≠ "")
      (workspace : after.runtime.workspaceId = plane.runtime.workspaceId)
      (server : after.runtime.server =
        some ⟨plane.tasks.length, url, plane.runtime.workspaceId⟩)
      (tasks : after.tasks = plane.tasks ++ [⟨plane.runtime.workspaceId, .waiting, false⟩])
      (leaves : LeavesServer plane action)
  | cleans {index : ℕ} {task : ServingTask} (isTask : plane.tasks[index]? = some task)
      (isDue : task.isDue = true) (isCleanup : action = .cleanup index)
      (sameRuntime : after.runtime = plane.runtime)
      (tasks : after.tasks = plane.tasks.set index { task with cleaned := true })
      (leaves : LeavesServer plane action)
  | loses {index : ℕ} {task : ServingTask} {server : RunningScimServer}
      (isTask : plane.tasks[index]? = some task) (isDue : task.isDue = true)
      (isCleanup : action = .cleanup index) (registered : plane.runtime.server = some server)
      (sameWorkspace : server.workspaceId = task.workspaceId)
      (noServer : after.runtime.server = none)
      (tasks : after.tasks = (({ plane with
          tasks := plane.tasks.set index { task with cleaned := true } } : ControlPlane).tell
        server.shutdown .dropped).tasks)

theorem leavesServer_of_ne {plane : ControlPlane} {action : Action}
    (notCleanup : ∀ index, action ≠ .cleanup index) : LeavesServer plane action :=
  fun index _ _ isCleanup => absurd isCleanup (notCleanup index)

theorem not_ends_cleanup (server : RunningScimServer) (index : ℕ) :
    ¬ Ends server (.cleanup index) := by
  rintro (isStop | ⟨input, isSync, _⟩)
  · cases isStop
  · cases isSync

theorem not_ends_start (server : RunningScimServer) (outside : Outside) :
    ¬ Ends server (.start outside) := by
  rintro (isStop | ⟨input, isSync, _⟩)
  · cases isStop
  · cases isSync

section Effects

variable {plane : ControlPlane}

theorem sync_effect (consistent : plane.Consistent) (input : ControlPlaneSyncInput) :
    Effect plane (.sync input) (sync input plane).2 := by
  have leaves : LeavesServer plane (.sync input) := leavesServer_of_ne (by simp)
  unfold sync
  split
  case h_1 message invalid =>
    refine .keeps rfl rfl (Or.inl rfl) ?_ leaves
    rintro server _ (isStop | ⟨other, isSync, valid, _⟩)
    · cases isStop
    · cases isSync
      rw [invalid] at valid
      cases valid
  case h_2 valid =>
    dsimp only
    split
    case isTrue other =>
      refine .takes ?_ rfl ?_ leaves
      · rw [takeServer_runtime]
      · intro server registered
        rcases consistent.registered server registered with ⟨isWorkspace, _⟩
        exact Or.inr ⟨input, rfl, valid, fun same => other.2 (isWorkspace ▸ same.symm)⟩
    case isFalse same =>
      cases registered : plane.runtime.server with
      | none =>
          refine .keeps registered.symm rfl (Or.inr registered) ?_ leaves
          intro server isServer
          rw [registered] at isServer
          cases isServer
      | some server =>
          rcases consistent.registered server registered with ⟨isWorkspace, named, _⟩
          rw [not_and_or, not_not, not_not] at same
          have sameWorkspace : plane.runtime.workspaceId = input.workspaceId := by
            rcases same with unnamed | same
            · exact absurd (isWorkspace.trans unnamed) named
            · exact same
          refine .keeps registered.symm rfl (Or.inl sameWorkspace.symm) ?_ leaves
          rintro other isOther (isStop | ⟨second, isSync, _, differs⟩)
          · cases isStop
          · cases isSync
            rw [registered] at isOther
            cases isOther
            exact differs (sameWorkspace.symm.trans isWorkspace.symm)

theorem nonempty_of_valid {workspaceId : String}
    (valid : validateWorkspaceId workspaceId = .ok ()) : workspaceId ≠ "" := by
  rintro rfl
  cases valid

theorem start_effect (outside : Outside) :
    Effect plane (.start outside) (startScimServer outside plane).2 := by
  have leaves : LeavesServer plane (.start outside) := leavesServer_of_ne (by simp)
  have unchanged : Effect plane (.start outside) plane :=
    .keeps rfl rfl (Or.inl rfl) (fun server _ => not_ends_start server outside) leaves
  unfold startScimServer
  dsimp only
  split
  case h_1 => exact unchanged
  case h_2 valid =>
    split
    case h_1 => exact unchanged
    case h_2 scim _ =>
      split
      case isTrue => exact unchanged
      case isFalse =>
        split
        case h_1 => exact unchanged
        case h_2 unregistered =>
          split
          case h_1 => exact unchanged
          case h_2 => exact .starts unregistered (nonempty_of_valid valid) rfl rfl rfl leaves

theorem stop_effect : Effect plane .stop (stopScimServer plane).2 := by
  have leaves : LeavesServer plane .stop := leavesServer_of_ne (by simp)
  unfold stopScimServer
  split
  case h_1 server registered =>
    refine .takes ?_ rfl (fun _ _ => Or.inl rfl) leaves
    rw [takeServer_runtime]
  case h_2 unregistered =>
    refine .keeps rfl rfl (Or.inl rfl) ?_ leaves
    intro server registered
    rw [unregistered] at registered
    cases registered

theorem cleanup_effect (index : ℕ) : Effect plane (.cleanup index) (cleanup index plane) := by
  have unchanged : LeavesServer plane (.cleanup index) →
      Effect plane (.cleanup index) plane := fun leaves =>
    .keeps rfl rfl (Or.inl rfl) (fun server _ => not_ends_cleanup server index) leaves
  unfold cleanup
  split
  case h_1 noTask =>
    apply unchanged
    intro other task server isCleanup isTask
    cases isCleanup
    rw [noTask] at isTask
    cases isTask
  case h_2 task isTask =>
    split
    case isFalse notDue =>
      apply unchanged
      intro other second server isCleanup isSecond isDue
      cases isCleanup
      rw [isTask] at isSecond
      cases isSecond
      exact absurd isDue notDue
    case isTrue isDue =>
      dsimp only
      split
      case h_1 unregistered =>
        refine .cleans isTask isDue rfl rfl rfl ?_
        intro other second server _ _ _ registered
        rw [unregistered] at registered
        cases registered
      case h_2 server registered =>
        split
        case isTrue sameWorkspace => exact .loses isTask isDue rfl registered sameWorkspace rfl rfl
        case isFalse otherWorkspace =>
          refine .cleans isTask isDue rfl rfl rfl ?_
          intro other second third isCleanup isSecond _ isThird
          cases isCleanup
          rw [isTask] at isSecond
          rw [registered] at isThird
          cases isSecond
          cases isThird
          exact otherWorkspace

theorem step_effect (consistent : plane.Consistent) (action : Action) :
    Effect plane action (step plane action) := by
  cases action with
  | sync input => exact sync_effect consistent input
  | start outside => exact start_effect outside
  | stop => exact stop_effect
  | request scim =>
      refine .keeps rfl rfl (Or.inl rfl) ?_ (leavesServer_of_ne (by simp))
      rintro server _ (isStop | ⟨input, isSync, _⟩)
      · cases isStop
      · cases isSync
  | cleanup index => exact cleanup_effect index

end Effects

/-! ## What steps keep -/

section Kept

variable {plane after : ControlPlane} {action : Action}

theorem isServing_congr {other : ControlPlane} (sameTasks : other.tasks = plane.tasks)
    (index : ℕ) : other.IsServing index ↔ plane.IsServing index := by
  unfold ControlPlane.IsServing
  rw [sameTasks]

theorem isServing_cleaned {other : ControlPlane} {cleaned : ℕ} {task : ServingTask}
    (isTask : plane.tasks[cleaned]? = some task)
    (tasks : other.tasks = plane.tasks.set cleaned { task with cleaned := true }) (index : ℕ) :
    other.IsServing index ↔ plane.IsServing index := by
  unfold ControlPlane.IsServing
  rw [tasks, List.getElem?_set]
  split
  case isTrue same =>
    subst same
    have inRange := (List.getElem?_eq_some_iff.mp isTask).1
    rw [if_pos inRange, isTask]
    simp
  case isFalse => rfl

/-- The registry and the tasks agree after every step. -/
theorem Effect.consistent (consistent : plane.Consistent) (effect : Effect plane action after) :
    after.Consistent := by
  cases effect with
  | keeps sameServer sameTasks workspace goesOn leaves =>
      constructor
      · intro server registered
        rw [sameServer] at registered
        rcases consistent.registered server registered with ⟨isWorkspace, named, task⟩
        rw [sameTasks]
        refine ⟨?_, named, task⟩
        rcases workspace with same | unregistered
        · rw [same, isWorkspace]
        · rw [unregistered] at registered
          cases registered
      · intro index serving
        rw [isServing_congr sameTasks] at serving
        rw [sameServer]
        exact consistent.alone index serving
  | takes noServer tasks ends leaves =>
      constructor
      · intro server registered
        rw [noServer] at registered
        cases registered
      · intro index serving
        rw [isServing_congr tasks] at serving
        exact absurd serving (consistent.not_serving_takeServer index)
  | starts unregistered named workspace server tasks leaves =>
      constructor
      · intro other registered
        rw [server] at registered
        cases registered
        rw [workspace, tasks]
        exact ⟨rfl, named, _, List.getElem?_concat_length, rfl, rfl⟩
      · intro index serving
        rcases serving with ⟨task, isTask, waiting⟩
        rw [tasks] at isTask
        refine ⟨_, server, ?_⟩
        by_cases isNew : index < plane.tasks.length
        · rw [List.getElem?_append_left isNew] at isTask
          rcases consistent.alone index ⟨task, isTask, waiting⟩ with ⟨other, registered, _⟩
          rw [unregistered] at registered
          cases registered
        · have inRange := (List.getElem?_eq_some_iff.mp isTask).1
          rw [List.length_append, List.length_singleton] at inRange
          change plane.tasks.length = index
          omega
  | @cleans cleaned task isTask isDue isCleanup sameRuntime tasks leaves =>
      constructor
      · intro server registered
        rw [sameRuntime] at registered ⊢
        rcases consistent.registered server registered with
          ⟨isWorkspace, named, own, isOwn, waiting, sameWorkspace⟩
        refine ⟨isWorkspace, named, own, ?_, waiting, sameWorkspace⟩
        rw [tasks, List.getElem?_set, if_neg, isOwn]
        rintro rfl
        rw [isTask] at isOwn
        cases isOwn
        simp [ServingTask.isDue, waiting] at isDue
      · intro index serving
        rw [isServing_cleaned isTask tasks] at serving
        rw [sameRuntime]
        exact consistent.alone index serving
  | @loses cleaned task server isTask isDue isCleanup registered sameWorkspace noServer tasks =>
      constructor
      · intro other isServer
        rw [noServer] at isServer
        cases isServer
      · intro index serving
        rw [isServing_congr tasks, not_serving_tell (by decide),
          isServing_cleaned isTask rfl] at serving
        rcases consistent.alone index serving.1 with ⟨other, isServer, same⟩
        rw [registered] at isServer
        cases isServer
        exact absurd same serving.2

theorem isTold_congr {other : ControlPlane} (sameTasks : other.tasks = plane.tasks) (index : ℕ) :
    other.IsTold index ↔ plane.IsTold index := by
  unfold ControlPlane.IsTold
  rw [sameTasks]

theorem ControlPlane.IsTold.tell {index : ℕ} (told : plane.IsTold index) (shutdown : ℕ)
    (signal : Shutdown) : (plane.tell shutdown signal).IsTold index := by
  rcases told with ⟨task, isTask, isSent⟩
  refine ⟨task, ?_, isSent⟩
  rw [tell_tasks, isTask]
  simp [isSent]

theorem ControlPlane.IsTold.cleaned {index cleaned : ℕ} {task : ServingTask}
    (told : plane.IsTold index) (isTask : plane.tasks[cleaned]? = some task) :
    ({ plane with tasks := plane.tasks.set cleaned { task with cleaned := true } } :
      ControlPlane).IsTold index := by
  rcases told with ⟨own, isOwn, isSent⟩
  unfold ControlPlane.IsTold
  dsimp only
  rw [List.getElem?_set]
  split
  case isTrue same =>
    subst same
    rw [isTask] at isOwn
    cases isOwn
    rw [if_pos (List.getElem?_eq_some_iff.mp isTask).1]
    exact ⟨_, rfl, isSent⟩
  case isFalse => exact ⟨own, isOwn, isSent⟩

theorem Effect.isTold (effect : Effect plane action after) {index : ℕ}
    (told : plane.IsTold index) : after.IsTold index := by
  cases effect with
  | keeps sameServer sameTasks workspace goesOn leaves =>
      rwa [isTold_congr sameTasks]
  | takes noServer tasks ends leaves =>
      rw [isTold_congr tasks]
      cases registered : plane.runtime.server with
      | none => rwa [takeServer_of_none registered]
      | some server =>
          rw [takeServer_of_some registered]
          exact told.tell server.shutdown .sent
  | starts unregistered named workspace server tasks leaves =>
      rcases told with ⟨task, isTask, isSent⟩
      refine ⟨task, ?_, isSent⟩
      rw [tasks, List.getElem?_append_left (List.getElem?_eq_some_iff.mp isTask).1, isTask]
  | cleans isTask isDue isCleanup sameRuntime tasks leaves =>
      rcases told.cleaned isTask with ⟨own, isOwn, isSent⟩
      exact ⟨own, by rw [tasks]; exact isOwn, isSent⟩
  | @loses _ _ server isTask isDue isCleanup registered sameWorkspace noServer tasks =>
      rw [isTold_congr tasks]
      exact (told.cleaned isTask).tell server.shutdown .dropped

theorem Effect.isTold_of_ends (consistent : plane.Consistent)
    (effect : Effect plane action after) {server : RunningScimServer}
    (registered : plane.runtime.server = some server) (ends : Ends server action) :
    after.IsTold server.shutdown := by
  cases effect with
  | keeps sameServer sameTasks workspace goesOn leaves =>
      exact absurd ends (goesOn server registered)
  | takes noServer tasks _ leaves =>
      rcases consistent.registered server registered with ⟨_, _, task, isTask, waiting, _⟩
      rw [isTold_congr tasks, takeServer_of_some registered]
      refine ⟨{ task with shutdown := .sent }, ?_, rfl⟩
      rw [tell_tasks, isTask]
      simp [waiting]
  | starts unregistered =>
      rw [unregistered] at registered
      cases registered
  | @cleans index _ isTask isDue isCleanup =>
      rw [isCleanup] at ends
      exact absurd ends (not_ends_cleanup server index)
  | @loses index _ _ isTask isDue isCleanup =>
      rw [isCleanup] at ends
      exact absurd ends (not_ends_cleanup server index)

theorem Effect.stays_iff (effect : Effect plane action after) {server : RunningScimServer}
    (registered : plane.runtime.server = some server) (goesOn : ¬ Ends server action) :
    after.runtime.server = some server ↔ LeavesServer plane action := by
  cases effect with
  | keeps sameServer sameTasks workspace _ leaves =>
      rw [sameServer]
      exact iff_of_true registered leaves
  | takes noServer tasks ends leaves => exact absurd (ends server registered) goesOn
  | starts unregistered =>
      rw [unregistered] at registered
      cases registered
  | cleans isTask isDue isCleanup sameRuntime tasks leaves =>
      rw [sameRuntime]
      exact iff_of_true registered leaves
  | @loses index task other isTask isDue isCleanup isOther sameWorkspace noServer tasks =>
      rw [noServer]
      refine iff_of_false (by simp) ?_
      intro leaves
      exact leaves index task other isCleanup isTask isDue isOther sameWorkspace

end Kept

/-! ## Runs -/

/-- The state before an action of a run. -/
abbrev planeAt (actions : List Action) (n : ℕ) : ControlPlane :=
  stateAt step .initial actions n

/-- What a run keeps: a server that is neither stopped nor superseded stays registered and serves;
no other server serves; and what is stopped or superseded is told, and stays told. -/
structure KeepsServers (actions : List Action) : Prop where
  stays : ∀ first last server, first ≤ last → last ≤ actions.length →
    (planeAt actions first).runtime.server = some server →
    (∀ n (inRange : n < actions.length), first ≤ n → n < last → ¬ Ends server actions[n]) →
      (planeAt actions last).runtime.server = some server ∧
        (planeAt actions last).IsServing server.shutdown
  alone : ∀ n ≤ actions.length, ∀ index, (planeAt actions n).IsServing index →
    ∃ server, (planeAt actions n).runtime.server = some server ∧ server.shutdown = index ∧
      server.workspaceId = (planeAt actions n).runtime.workspaceId
  told : ∀ n (inRange : n < actions.length) server,
    (planeAt actions n).runtime.server = some server → Ends server actions[n] →
      ∀ later, n < later → later ≤ actions.length →
        (planeAt actions later).IsTold server.shutdown

theorem initial_consistent : ControlPlane.initial.Consistent := by
  constructor
  · intro server registered
    cases registered
  · rintro index ⟨task, isTask, _⟩
    cases isTask

theorem planeAt_consistent (actions : List Action) :
    EveryState step .initial actions ControlPlane.Consistent := by
  have every : EveryStep step .initial actions fun _ _ => True := fun _ _ => trivial
  apply EveryState.of_everyStep initial_consistent _ every
  exact fun plane action consistent _ => (step_effect consistent action).consistent consistent

section Runs

variable {actions : List Action}

theorem planeAt_effect (n : ℕ) (inRange : n < actions.length) :
    Effect (planeAt actions n) actions[n] (planeAt actions (n + 1)) := by
  have effect := step_effect (planeAt_consistent actions n (by omega)) actions[n]
  unfold planeAt
  rw [stateAt_succ inRange]
  exact effect

theorem planeAt_told (n : ℕ) (inRange : n < actions.length) {server : RunningScimServer}
    (registered : (planeAt actions n).runtime.server = some server)
    (ends : Ends server actions[n]) {later : ℕ} (behind : n < later)
    (laterInRange : later ≤ actions.length) : (planeAt actions later).IsTold server.shutdown := by
  induction later with
  | zero => omega
  | succ later ih =>
      have consistent := planeAt_consistent actions later (by omega)
      have effect := planeAt_effect later laterInRange
      rcases Nat.eq_or_lt_of_le (Nat.le_of_lt_succ behind) with rfl | isBehind
      · exact effect.isTold_of_ends consistent registered ends
      · exact effect.isTold (ih isBehind (by omega))

theorem planeAt_stays (leaves : EveryStep step .initial actions LeavesServer) {first last : ℕ}
    {server : RunningScimServer} (le : first ≤ last) (inRange : last ≤ actions.length)
    (registered : (planeAt actions first).runtime.server = some server)
    (goesOn : ∀ n (inRange : n < actions.length), first ≤ n → n < last →
      ¬ Ends server actions[n]) : (planeAt actions last).runtime.server = some server := by
  induction last with
  | zero =>
      rw [Nat.le_zero] at le
      rwa [← le]
  | succ last ih =>
      rcases Nat.eq_or_lt_of_le le with rfl | lt
      · exact registered
      · have before := ih (by omega) (by omega) fun n inRange isBehind isBefore =>
          goesOn n inRange isBehind (by omega)
        have effect := planeAt_effect last inRange
        apply (effect.stays_iff before (goesOn last inRange (by omega) (by omega))).mpr
        exact leaves last inRange

/-- Servers are kept in a run exactly if no cleanup of an earlier server comes while one of the
same workspace is registered. -/
theorem keepsServers_iff (actions : List Action) :
    KeepsServers actions ↔ EveryStep step .initial actions LeavesServer := by
  constructor
  · intro keeps n inRange
    have effect := planeAt_effect n inRange
    intro index task server isCleanup isTask isDue registered
    have goesOn : ¬ Ends server actions[n] := by
      rw [isCleanup]
      exact not_ends_cleanup server index
    have stays := (keeps.stays n (n + 1) server (by omega) inRange registered (by
      intro m mInRange isBehind isBefore
      obtain rfl : m = n := by omega
      exact goesOn)).1
    exact (effect.stays_iff registered goesOn).mp stays index task server isCleanup isTask isDue
      registered
  · intro leaves
    refine ⟨?_, ?_, ?_⟩
    · intro first last server le inRange registered goesOn
      have stays := planeAt_stays leaves le inRange registered goesOn
      rcases (planeAt_consistent actions last inRange).registered server stays with
        ⟨_, _, task, isTask, waiting, _⟩
      exact ⟨stays, task, isTask, waiting⟩
    · intro n inRange index serving
      have consistent := planeAt_consistent actions n inRange
      rcases consistent.alone index serving with ⟨server, registered, same⟩
      exact ⟨server, registered, same, (consistent.registered server registered).1⟩
    · intro n inRange server registered ends later behind laterInRange
      exact planeAt_told n inRange registered ends behind laterInRange

end Runs

/-! ## A server that is started again -/

def localOutside : Outside where
  storedScimToken _ := .ok (some ⟨"t", ""⟩)
  parseTime _ := none
  now := 0
  bind host port := .ok ⟨false, host, port⟩

/-- A server is stopped and started again before the first task has cleaned up. -/
def restartActions : List Action :=
  [.sync ⟨"w", ⟨true, "127.0.0.1", 8080, "t"⟩⟩, .start localOutside, .stop, .start localOutside,
    .cleanup 0]

/-- The cleanup of the first server unregisters the second one, and drops its handle. -/
theorem restart_losesServer : ¬ KeepsServers restartActions := by
  intro keeps
  have registered : (planeAt restartActions 4).runtime.server =
      some ⟨1, "http://127.0.0.1:8080/scim/v2", "w"⟩ := by
    decide
  have goesOn : ∀ n (inRange : n < restartActions.length), 4 ≤ n → n < 5 →
      ¬ Ends ⟨1, "http://127.0.0.1:8080/scim/v2", "w"⟩ restartActions[n] := by
    intro n inRange isBehind isBefore
    obtain rfl : n = 4 := by omega
    exact not_ends_cleanup _ 0
  have stays := (keeps.stays 4 5 _ (by decide) (by decide) registered goesOn).1
  have lost : (planeAt restartActions 5).runtime.server = none := by
    decide
  rw [lost] at stays
  cases stays

end Brunomnia.ScimServer
