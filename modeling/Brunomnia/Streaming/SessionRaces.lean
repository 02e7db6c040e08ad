import Brunomnia.Streaming.Sessions

/-!
# Races for a session id

A live connection should be the one that its session id leads to, so that it can be sent to and
disconnected. That holds in a run exactly if no connection is entered while its id is taken,
which the check cannot ensure since the handshake comes between, and no task ends after its id
was taken by a newer connection, since it removes whatever entry it finds.
-/

namespace Brunomnia.Streaming

open Library

variable {system : StreamingSystem}

/-! ## What is expected of a run -/

/-- The task of a connection runs. -/
def Connection.IsRunning (connection : Connection) : Prop :=
  connection.phase = .live ∨ connection.phase = .closing

/-- Live connections can be reached by their session ids, and there is one for each id. -/
structure LiveReachable (system : StreamingSystem) : Prop where
  unique : ∀ (first second : ℕ) (firstConnection secondConnection : Connection),
    system.connections[first]? = some firstConnection →
    system.connections[second]? = some secondConnection →
    firstConnection.phase = .live → secondConnection.phase = .live →
    firstConnection.kind = secondConnection.kind →
    firstConnection.sessionId = secondConnection.sessionId → first = second
  sendable : ∀ (number : ℕ) (connection : Connection),
    system.connections[number]? = some connection →
    connection.phase = .live →
    system.state.sender connection.kind connection.sessionId = some number
  disconnectable : ∀ (number : ℕ) (connection : Connection),
    system.connections[number]? = some connection →
    connection.phase = .live →
    ∃ after, system.state.disconnect connection.kind connection.sessionId = .ok (number, after)

/-- The entry of a running task goes only by its own end or by a disconnect of its id. -/
def EntriesKept (system : StreamingSystem) (step : StreamStep) : Prop :=
  ∀ (number : ℕ) (connection : Connection),
    system.connections[number]? = some connection → connection.IsRunning →
    system.state.sessions connection.kind connection.sessionId = some number →
    (system.step step).state.sessions connection.kind connection.sessionId = some number ∨
      step = .taskEnds number ∨ step = .disconnect connection.kind connection.sessionId

/-! ## When it holds -/

/-- A connection enters a free id, and a task that ends finds no entry but its own. -/
def Unraced (system : StreamingSystem) : StreamStep → Prop
  | .insert number => ∀ connection : Connection, system.connections[number]? = some connection →
      connection.phase = .connecting →
      system.state.sessions connection.kind connection.sessionId = none
  | .taskEnds number => ∀ connection : Connection,
      system.connections[number]? = some connection → connection.IsRunning →
      ∀ entered, system.state.sessions connection.kind connection.sessionId = some entered →
        entered = number
  | _ => True

/-! ## What a step does -/

theorem setPhase_connections (number other : ℕ) (phase : Phase) :
    (system.setPhase number phase).connections[other]? =
      if number = other then system.connections[other]?.map fun connection =>
        { connection with phase }
      else system.connections[other]? := by
  simp only [StreamingSystem.setPhase, List.getElem?_modify]
  split <;> simp

/-- The moves that the steps come down to. -/
inductive Moves (system : StreamingSystem) : StreamStep → StreamingSystem → Prop where
  | stay {step : StreamStep} : Moves system step system
  | opened (kind : StreamKind) (sessionId : String) :
      Moves system (.check kind sessionId)
        { system with connections := system.connections ++ [⟨kind, sessionId, .connecting⟩] }
  | failed {number : ℕ} {kind : StreamKind} {sessionId : String}
      (found : system.connections[number]? = some ⟨kind, sessionId, .connecting⟩) :
      Moves system (.handshakeFails number) (system.setPhase number .ended)
  | inserted {number : ℕ} {kind : StreamKind} {sessionId : String}
      (found : system.connections[number]? = some ⟨kind, sessionId, .connecting⟩) :
      Moves system (.insert number)
        { system.setPhase number .live with
          state := system.state.setEntry kind sessionId (some number) }
  | disconnected {number : ℕ} {kind : StreamKind} {sessionId : String}
      (entered : system.state.sessions kind sessionId = some number) :
      Moves system (.disconnect kind sessionId)
        { system.setPhase number .closing with
          state := system.state.setEntry kind sessionId none }
  | ended {number : ℕ} {connection : Connection}
      (found : system.connections[number]? = some connection) (running : connection.IsRunning) :
      Moves system (.taskEnds number)
        { system.setPhase number .ended with
          state := system.state.setEntry connection.kind connection.sessionId none }

theorem step_moves (system : StreamingSystem) (step : StreamStep) :
    Moves system step (system.step step) := by
  cases step with
  | check kind sessionId =>
      simp only [StreamingSystem.step, StreamingSystem.check]
      split
      · exact .stay
      · exact .opened kind sessionId
  | handshakeFails number =>
      simp only [StreamingSystem.step, StreamingSystem.handshakeFails]
      split
      case h_1 found => exact .failed found
      case h_2 => exact .stay
  | insert number =>
      simp only [StreamingSystem.step, StreamingSystem.insert]
      split
      case h_1 found => exact .inserted found
      case h_2 => exact .stay
  | disconnect kind sessionId =>
      simp only [StreamingSystem.step, StreamingSystem.disconnect, StreamingState.disconnect]
      cases entered : system.state.sessions kind sessionId with
      | none => exact .stay
      | some number => exact .disconnected entered
  | taskEnds number =>
      simp only [StreamingSystem.step, StreamingSystem.taskEnds]
      split
      case h_1 found => exact .ended found (.inl rfl)
      case h_2 found => exact .ended found (.inr rfl)
      case h_3 => exact .stay

theorem insert_state {number : ℕ} {connection : Connection}
    (found : system.connections[number]? = some connection)
    (connecting : connection.phase = .connecting) :
    (system.step (.insert number)).state =
      system.state.setEntry connection.kind connection.sessionId (some number) := by
  obtain ⟨kind, sessionId, phase⟩ := connection
  cases connecting
  simp [StreamingSystem.step, StreamingSystem.insert, found]

theorem taskEnds_state {number : ℕ} {connection : Connection}
    (found : system.connections[number]? = some connection) (running : connection.IsRunning) :
    (system.step (.taskEnds number)).state =
      system.state.setEntry connection.kind connection.sessionId none := by
  obtain ⟨kind, sessionId, phase⟩ := connection
  rcases running with live | closing
  · cases live
    simp [StreamingSystem.step, StreamingSystem.taskEnds, found]
  · cases closing
    simp [StreamingSystem.step, StreamingSystem.taskEnds, found]

/-! ## Entries lead to live connections -/

/-- Every entry is the sender of a live connection under its id. -/
def EntriesLive (system : StreamingSystem) : Prop :=
  ∀ kind sessionId number, system.state.sessions kind sessionId = some number →
    system.connections[number]? = some ⟨kind, sessionId, .live⟩

theorem EntriesLive.setPhase (entries : EntriesLive system) {number : ℕ} {phase : Phase}
    {kind : StreamKind} {sessionId : String} {other : ℕ}
    (entered : system.state.sessions kind sessionId = some other) (different : number ≠ other) :
    (system.setPhase number phase).connections[other]? = some ⟨kind, sessionId, .live⟩ := by
  rw [setPhase_connections, if_neg different]
  exact entries kind sessionId other entered

theorem EntriesLive.moves (entries : EntriesLive system) {step : StreamStep}
    {next : StreamingSystem} (moves : Moves system step next) : EntriesLive next := by
  intro kind sessionId number entered
  cases moves with
  | stay => exact entries kind sessionId number entered
  | opened openedKind openedId =>
      have found := entries kind sessionId number entered
      exact (List.getElem?_append_left (List.getElem?_eq_some_iff.mp found).1).trans found
  | @failed failed failedKind failedId found =>
      apply entries.setPhase entered
      rintro rfl
      simp [entries kind sessionId failed entered] at found
  | @inserted inserted insertedKind insertedId found =>
      by_cases same : kind = insertedKind ∧ sessionId = insertedId
      · rcases same with ⟨rfl, rfl⟩
        simp only [StreamingState.setEntry_self, Option.some.injEq] at entered
        subst entered
        simp [setPhase_connections, found]
      · simp only [StreamingState.setEntry_of_ne _ _ same] at entered
        apply entries.setPhase entered
        rintro rfl
        simp [entries kind sessionId inserted entered] at found
  | @disconnected sender closedKind closedId closed =>
      by_cases same : kind = closedKind ∧ sessionId = closedId
      · rcases same with ⟨rfl, rfl⟩
        simp at entered
      · simp only [StreamingState.setEntry_of_ne _ _ same] at entered
        apply entries.setPhase entered
        rintro rfl
        have found := entries kind sessionId sender entered
        simp only [entries closedKind closedId sender closed, Option.some.injEq,
          Connection.mk.injEq, and_true] at found
        exact same ⟨found.1.symm, found.2.symm⟩
  | @ended ended connection found running =>
      by_cases same : kind = connection.kind ∧ sessionId = connection.sessionId
      · rcases same with ⟨rfl, rfl⟩
        simp at entered
      · simp only [StreamingState.setEntry_of_ne _ _ same] at entered
        apply entries.setPhase entered
        rintro rfl
        simp only [entries kind sessionId ended entered, Option.some.injEq] at found
        subst found
        exact same ⟨rfl, rfl⟩

theorem EntriesLive.step (entries : EntriesLive system) (step : StreamStep) :
    EntriesLive (system.step step) :=
  entries.moves (step_moves system step)

/-! ## Live connections have their entries -/

/-- Every live connection is the one that its id leads to. -/
def LiveEntered (system : StreamingSystem) : Prop :=
  ∀ (number : ℕ) (connection : Connection), system.connections[number]? = some connection →
    connection.phase = .live →
    system.state.sessions connection.kind connection.sessionId = some number

theorem liveReachable_iff : LiveReachable system ↔ LiveEntered system := by
  constructor
  · exact LiveReachable.sendable
  · intro entered
    refine ⟨?_, entered, ?_⟩
    · intro first second firstConnection secondConnection firstFound secondFound firstLive
        secondLive sameKind sameId
      have firstEntered := entered first firstConnection firstFound firstLive
      have secondEntered := entered second secondConnection secondFound secondLive
      rw [sameKind, sameId, secondEntered] at firstEntered
      exact (Option.some.inj firstEntered).symm
    · intro number connection found live
      simp [StreamingState.disconnect, entered number connection found live]

theorem live_of_setPhase {number other : ℕ} {phase : Phase} {connection : Connection}
    (notLive : phase ≠ .live)
    (found : (system.setPhase number phase).connections[other]? = some connection)
    (live : connection.phase = .live) :
    number ≠ other ∧ system.connections[other]? = some connection := by
  rw [setPhase_connections] at found
  split at found
  case isTrue same =>
    rcases Option.map_eq_some_iff.mp found with ⟨before, _, rfl⟩
    exact absurd live notLive
  case isFalse different => exact ⟨different, found⟩

theorem LiveEntered.moves (live : LiveEntered system)
    {step : StreamStep} {next : StreamingSystem} (moves : Moves system step next)
    (unraced : Unraced system step) : LiveEntered next := by
  intro number connection found isLive
  cases moves with
  | stay => exact live number connection found isLive
  | opened openedKind openedId =>
      rw [List.getElem?_append] at found
      split at found
      case isTrue => exact live number connection found isLive
      case isFalse =>
        rcases List.mem_singleton.mp (List.mem_of_getElem? found) with rfl
        cases isLive
  | @failed failed failedKind failedId before =>
      exact live number connection (live_of_setPhase (by simp) found isLive).2 isLive
  | @inserted inserted insertedKind insertedId before =>
      simp only [setPhase_connections] at found
      split at found
      case isTrue same =>
        subst same
        simp only [before, Option.map_some, Option.some.injEq] at found
        subst found
        simp
      case isFalse different =>
        have entered := live number connection found isLive
        rw [StreamingState.setEntry_of_ne, entered]
        rintro ⟨sameKind, sameId⟩
        rw [sameKind, sameId, unraced _ before rfl] at entered
        cases entered
  | @disconnected sender closedKind closedId closed =>
      rcases live_of_setPhase (by simp) found isLive with ⟨different, before⟩
      have entered := live number connection before isLive
      rw [StreamingState.setEntry_of_ne, entered]
      rintro ⟨sameKind, sameId⟩
      rw [sameKind, sameId, closed] at entered
      exact different (Option.some.inj entered)
  | @ended ended endedConnection before running =>
      rcases live_of_setPhase (by simp) found isLive with ⟨different, before'⟩
      have entered := live number connection before' isLive
      rw [StreamingState.setEntry_of_ne, entered]
      rintro ⟨sameKind, sameId⟩
      rw [sameKind, sameId] at entered
      exact different (unraced endedConnection before running number entered).symm

/-! ## Which steps keep the entries -/

theorem entriesKept_iff (entries : EntriesLive system) (step : StreamStep) :
    EntriesKept system step ↔ Unraced system step := by
  constructor
  · intro kept
    cases step with
    | insert number =>
        intro connection found connecting
        by_contra taken
        rcases Option.ne_none_iff_exists'.mp taken with ⟨entered, enteredEq⟩
        have isLive := entries _ _ _ enteredEq
        have after := kept entered _ isLive (.inl rfl) enteredEq
        simp only [insert_state found connecting, StreamingState.setEntry_self,
          Option.some.injEq, reduceCtorEq, or_self, or_false] at after
        rw [← after, found, Option.some.injEq] at isLive
        have phases := congrArg Connection.phase isLive
        simp [connecting] at phases
    | taskEnds number =>
        intro connection found running entered enteredEq
        have isLive := entries _ _ _ enteredEq
        rcases kept entered _ isLive (.inl rfl) enteredEq with after | after | after
        · simp only [taskEnds_state found running, StreamingState.setEntry_self] at after
          cases after
        · simpa using after.symm
        · cases after
    | check kind sessionId => trivial
    | handshakeFails number => trivial
    | disconnect kind sessionId => trivial
  · intro unraced number connection found running entered
    have moves := step_moves system step
    generalize system.step step = next at moves
    cases moves with
    | stay => exact .inl entered
    | opened => exact .inl entered
    | failed => exact .inl entered
    | @inserted inserted kind sessionId before =>
        left
        rw [StreamingState.setEntry_of_ne, entered]
        rintro ⟨sameKind, sameId⟩
        rw [sameKind, sameId, unraced _ before rfl] at entered
        cases entered
    | @disconnected sender kind sessionId closed =>
        by_cases same : connection.kind = kind ∧ connection.sessionId = sessionId
        · rcases same with ⟨rfl, rfl⟩
          exact .inr (.inr rfl)
        · left
          rw [StreamingState.setEntry_of_ne _ _ same, entered]
    | @ended ended endedConnection before endedRunning =>
        by_cases same : connection.kind = endedConnection.kind ∧
            connection.sessionId = endedConnection.sessionId
        · right
          left
          rw [same.1, same.2] at entered
          rw [unraced endedConnection before endedRunning number entered]
        · left
          rw [StreamingState.setEntry_of_ne _ _ same, entered]

/-! ## Runs -/

theorem entriesLive_run (steps : List StreamStep) :
    EveryState StreamingSystem.step .initial steps EntriesLive := by
  have always : EveryStep StreamingSystem.step .initial steps fun _ _ => True :=
    fun _ _ => trivial
  refine EveryState.of_everyStep ?_ ?_ always
  · intro kind sessionId number entered
    simp [StreamingSystem.initial, StreamingState.empty] at entered
  · exact fun system step entries _ => entries.step step

/-- In a run every live connection is the one its id leads to, and keeps its entry until its end
or a disconnect, exactly if no step of the run is raced. -/
theorem liveReachable_iff_unraced (steps : List StreamStep) :
    (EveryState StreamingSystem.step .initial steps LiveReachable ∧
        EveryStep StreamingSystem.step .initial steps EntriesKept) ↔
      EveryStep StreamingSystem.step .initial steps Unraced := by
  have entries := entriesLive_run steps
  constructor
  · rintro ⟨_, kept⟩ n inRange
    exact (entriesKept_iff (entries n (Nat.le_of_lt inRange)) _).mp (kept n inRange)
  · intro unraced
    constructor
    · have both : EveryState StreamingSystem.step .initial steps
          fun system => EntriesLive system ∧ LiveEntered system := by
        refine EveryState.of_everyStep ?_ ?_ unraced
        · refine ⟨entries 0 (Nat.zero_le _), ?_⟩
          intro number connection found
          simp [StreamingSystem.initial] at found
        · rintro system step ⟨entries, live⟩ unraced
          exact ⟨entries.step step, live.moves (step_moves system step) unraced⟩
      intro n inRange
      exact liveReachable_iff.mpr (both n inRange).2
    · intro n inRange
      exact (entriesKept_iff (entries n (Nat.le_of_lt inRange)) _).mpr (unraced n inRange)

/-- A session that is disconnected and connected again before its old task ends. -/
def reconnection : List StreamStep :=
  [.check .websocket "session-1", .insert 0, .disconnect .websocket "session-1",
    .check .websocket "session-1", .insert 1, .taskEnds 0]

/-- The old task removes the entry of the new connection. -/
theorem reconnection_unreachable :
    ¬ ∀ steps : List StreamStep,
      EveryState StreamingSystem.step .initial steps LiveReachable ∧
        EveryStep StreamingSystem.step .initial steps EntriesKept := by
  intro reachable
  have last := (reachable reconnection).1 6 le_rfl
  have sent := last.sendable 1 ⟨.websocket, "session-1", .live⟩ rfl rfl
  cases sent

end Brunomnia.Streaming
