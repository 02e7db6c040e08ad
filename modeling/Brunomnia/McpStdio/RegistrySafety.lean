import Brunomnia.McpStdio.Registry

/-!
# Sessions are neither lost nor mixed up

In every state of every run the registry keeps its limit, a call is executed on a process that was
started for it or for a call with the same launch, and a process that is not closed is registered
under its key or held by a call or a close. The steps between let a session go for a moment; the
invariant names the sessions that are let go, and the end of the step drops them.
-/

namespace Brunomnia.McpStdio.Registry

open Library

variable {system : System}

/-! ## What is expected of a state -/

/-- A process with a launch and a key. -/
def System.Started (system : System) (session : ℕ) (launch : Launch) (sessionKey : String) :
    Prop :=
  ∃ process, system.processes[session]? = some process ∧ process.launch = launch ∧
    process.sessionKey = sessionKey

/-- The session of a process is the registered one of a key. -/
def System.RegisteredAs (system : System) (session : ℕ) (sessionKey : String) : Prop :=
  ∃ entry, system.sessions.read sessionKey = some entry ∧ entry.session = session

structure Sound (system : System) : Prop where
  limited : system.sessions.entries.length ≤ maxSessions
  executes : ∀ input session, .call input (.executing session) ∈ system.tasks →
    system.Started session input.launch input.sessionKey
  owned : ∀ (session : ℕ) (process : Process), system.processes[session]? = some process →
    process.closed = true ∨ system.RegisteredAs session process.sessionKey ∨
      ∃ task ∈ system.tasks, session ∈ task.sessions

/-! ## The invariant -/

/-- The session that a call is going to be executed on. -/
def CallPhase.chosen : CallPhase → Option ℕ
  | .initializing opened | .registering opened => some opened
  | .closingReplaced active _ => some active
  | .executing session | .removing session => some session
  | .lookingUp | .closingPrevious _ | .opening | .ended => none

def System.Supports (system : System) : Task → Prop
  | .call input phase => ∀ session ∈ phase.chosen,
      system.Started session input.launch input.sessionKey
  | .close _ _ => True

/-- The invariant of the states within a step, where some sessions may be let go. -/
structure Kept (system : System) (loose : List ℕ) : Prop where
  limited : system.sessions.entries.length ≤ maxSessions
  entries : ∀ sessionKey entry, system.sessions.read sessionKey = some entry →
    ∃ launch, system.Started entry.session launch sessionKey ∧
      entry.fingerprint = launch.json.text
  supported : ∀ task ∈ system.tasks, system.Supports task
  owned : ∀ (session : ℕ) (process : Process), system.processes[session]? = some process →
    process.closed = false → system.isHeld session = true ∨ session ∈ loose

theorem isHeld_iff {session : ℕ} :
    system.isHeld session = true ↔
      (∃ sessionKey, system.RegisteredAs session sessionKey) ∨
        ∃ task ∈ system.tasks, session ∈ task.sessions := by
  simp only [System.isHeld, Bool.or_eq_true, List.any_eq_true, decide_eq_true_eq,
    List.contains_iff_mem, System.RegisteredAs, Store.read_eq_some_iff, Prod.exists]

theorem System.Supports.mono {later : System} {task : Task} (supported : system.Supports task)
    (extended : ∀ session launch sessionKey, system.Started session launch sessionKey →
      later.Started session launch sessionKey) : later.Supports task := by
  cases task with
  | call input phase =>
      exact fun session isChosen => extended _ _ _ (supported session isChosen)
  | close sessionKey phase => trivial

theorem Kept.sound (kept : Kept system []) : Sound system where
  limited := kept.limited
  executes input session taskMem := kept.supported _ taskMem session rfl
  owned session process found := by
    cases closed : process.closed with
    | true => exact .inl rfl
    | false =>
        right
        rcases kept.owned session process found closed with held | looseMem
        · rcases isHeld_iff.mp held with ⟨sessionKey, entry, registered, isSession⟩ | byTask
          · rcases kept.entries sessionKey entry registered with
              ⟨launch, ⟨other, otherFound, _, sameKey⟩, _⟩
            rw [isSession, found, Option.some.injEq] at otherFound
            subst otherFound
            exact .inl ⟨entry, sameKey ▸ registered, isSession⟩
          · exact .inr byTask
        · cases looseMem

/-! ## What the parts of a step keep -/

theorem Kept.weaken {loose wider : List ℕ} (kept : Kept system loose) (subset : loose ⊆ wider) :
    Kept system wider where
  limited := kept.limited
  entries := kept.entries
  supported := kept.supported
  owned session process found isOpen :=
    (kept.owned session process found isOpen).imp_right fun looseMem => subset looseMem

/-- A task goes on to another phase, with what it holds and what is loose by then. -/
theorem Kept.setTask {loose left : List ℕ} (kept : Kept system loose) {number : ℕ}
    {before after : Task} (found : system.tasks[number]? = some before)
    (supported : system.Supports after)
    (taken : ∀ session, session ∈ before.sessions ∨ session ∈ loose →
      session ∈ after.sessions ∨ session ∈ left) :
    Kept (system.setTask number after) left where
  limited := kept.limited
  entries := kept.entries
  supported task taskMem := by
    rcases List.mem_or_eq_of_mem_set taskMem with older | rfl
    · exact kept.supported task older
    · exact supported
  owned session process processFound isOpen := by
    have inRange : number < system.tasks.length := (List.getElem?_eq_some_iff.mp found).1
    have afterMem : after ∈ (system.setTask number after).tasks := List.mem_set inRange after
    have settle (either : session ∈ after.sessions ∨ session ∈ left) :
        (system.setTask number after).isHeld session = true ∨ session ∈ left := by
      rcases either with holds | leftMem
      · exact .inl (isHeld_iff.mpr (.inr ⟨after, afterMem, holds⟩))
      · exact .inr leftMem
    rcases kept.owned session process processFound isOpen with held | looseMem
    · rcases isHeld_iff.mp held with registered | ⟨task, taskMem, holds⟩
      · exact .inl (isHeld_iff.mpr (.inl registered))
      · rcases List.getElem?_of_mem taskMem with ⟨other, otherFound⟩
        by_cases same : number = other
        · subst same
          rw [found, Option.some.injEq] at otherFound
          exact settle (taken session (.inl (otherFound ▸ holds)))
        · apply Or.inl
          apply isHeld_iff.mpr
          refine .inr ⟨task, ?_, holds⟩
          apply List.mem_of_getElem? (i := other)
          rw [System.setTask, List.getElem?_set_ne same, otherFound]
    · exact settle (taken session (.inr looseMem))

theorem started_modify {session other : ℕ} {launch : Launch} {sessionKey : String}
    {change : Process → Process}
    (same : ∀ process, (change process).launch = process.launch ∧
      (change process).sessionKey = process.sessionKey)
    (started : system.Started other launch sessionKey) :
    System.Started { system with processes := system.processes.modify session change } other launch
      sessionKey := by
  rcases started with ⟨process, found, isLaunch, isKey⟩
  by_cases isOther : session = other
  · refine ⟨change process, ?_, (same process).1.trans isLaunch, (same process).2.trans isKey⟩
    simp [found, isOther]
  · exact ⟨process, by simp [found, isOther], isLaunch, isKey⟩

theorem Kept.modify {loose : List ℕ} (kept : Kept system loose) (session : ℕ)
    (change : Process → Process)
    (same : ∀ process, (change process).launch = process.launch ∧
      (change process).sessionKey = process.sessionKey)
    (stays : ∀ process, (change process).closed = false → process.closed = false) :
    Kept { system with processes := system.processes.modify session change } loose where
  limited := kept.limited
  entries sessionKey entry registered := by
    rcases kept.entries sessionKey entry registered with ⟨launch, started, isFingerprint⟩
    exact ⟨launch, started_modify same started, isFingerprint⟩
  supported task taskMem :=
    (kept.supported task taskMem).mono fun _ _ _ => started_modify same
  owned other process found isOpen := by
    simp only [List.getElem?_modify, Option.map_eq_map, Option.map_eq_some_iff] at found
    rcases found with ⟨before, beforeFound, isChanged⟩
    apply kept.owned other before beforeFound
    split at isChanged
    · exact stays before (isChanged ▸ isOpen)
    · exact isChanged ▸ isOpen

theorem Kept.close {loose left : List ℕ} {session : ℕ} (kept : Kept system loose)
    (taken : ∀ other ∈ loose, other = session ∨ other ∈ left) :
    Kept (system.close session) left := by
  have closed := kept.modify session (fun process => { process with closed := true })
    (fun _ => ⟨rfl, rfl⟩) (fun _ isOpen => nomatch isOpen)
  refine ⟨closed.limited, closed.entries, closed.supported, ?_⟩
  intro other process found isOpen
  refine (closed.owned other process found isOpen).imp_right fun looseMem => ?_
  rcases taken other looseMem with rfl | leftMem
  · simp only [System.close, List.getElem?_modify, if_true, Option.map_eq_map,
      Option.map_eq_some_iff] at found
    rcases found with ⟨before, _, rfl⟩
    cases isOpen
  · exact leftMem

theorem Kept.drop {loose left : List ℕ} {session : ℕ} (kept : Kept system loose)
    (taken : ∀ other ∈ loose, other = session ∨ other ∈ left) :
    Kept (system.drop session) left := by
  rw [System.drop]
  split
  case isTrue held =>
      refine ⟨kept.limited, kept.entries, kept.supported, ?_⟩
      intro other process found isOpen
      rcases kept.owned other process found isOpen with isHeld | looseMem
      · exact .inl isHeld
      · rcases taken other looseMem with rfl | leftMem
        · exact .inl held
        · exact .inr leftMem
  case isFalse => exact kept.close taken

theorem Kept.foldl_drop (held : List ℕ) {loose : List ℕ} (kept : Kept system loose)
    (taken : loose ⊆ held) : Kept (held.foldl System.drop system) [] := by
  induction held generalizing system loose with
  | nil => exact kept.weaken taken
  | cons session held ih =>
      have dropped : Kept (system.drop session) held :=
        kept.drop fun other looseMem => List.mem_cons.mp (taken looseMem)
      exact ih dropped (List.Subset.refl held)

theorem Kept.finish {loose held : List ℕ} (kept : Kept system loose) {number : ℕ}
    {before after : Task} (found : system.tasks[number]? = some before)
    (supported : system.Supports after)
    (taken : ∀ session, session ∈ before.sessions ∨ session ∈ loose →
      session ∈ after.sessions ∨ session ∈ held) :
    Kept (system.finish number after held) [] :=
  (kept.setTask found supported taken).foldl_drop held (List.Subset.refl held)

theorem Kept.remove {loose : List ℕ} (kept : Kept system loose) {sessionKey : String}
    {entry : SessionEntry} (registered : system.sessions.read sessionKey = some entry) :
    Kept (system.remove sessionKey) (entry.session :: loose) where
  limited := (List.length_filter_le _ _).trans kept.limited
  entries otherKey other found := by
    by_cases isKey : otherKey = sessionKey
    · rw [System.remove, isKey, Store.read_remove_self] at found
      cases found
    · rw [System.remove, Store.read_remove_of_ne isKey] at found
      exact kept.entries otherKey other found
  supported := kept.supported
  owned session process found isOpen := by
    rcases kept.owned session process found isOpen with held | looseMem
    · rcases isHeld_iff.mp held with ⟨otherKey, other, otherFound, isSession⟩ | byTask
      · by_cases isKey : otherKey = sessionKey
        · rw [isKey, registered, Option.some.injEq] at otherFound
          subst otherFound
          exact .inr (by simp [isSession])
        · refine .inl (isHeld_iff.mpr (.inl ⟨otherKey, other, ?_, isSession⟩))
          rw [System.remove, Store.read_remove_of_ne isKey, otherFound]
      · exact .inl (isHeld_iff.mpr (.inr byTask))
    · exact .inr (List.mem_cons_of_mem _ looseMem)

theorem insert_length_le {sessions : Store String SessionEntry} {sessionKey : String}
    {entry : SessionEntry} (limited : sessions.entries.length ≤ maxSessions)
    (room : (sessions.read sessionKey).isSome ∨ sessions.entries.length < maxSessions) :
    (sessions.write sessionKey entry).entries.length ≤ maxSessions := by
  have length : (sessions.write sessionKey entry).entries.length =
      (sessions.remove sessionKey).entries.length + 1 := rfl
  have shorter : (sessions.remove sessionKey).entries.length ≤ sessions.entries.length :=
    List.length_filter_le _ _
  rcases room with present | room
  · rcases Option.isSome_iff_exists.mp present with ⟨old, found⟩
    have same := (Store.entries_perm_of_read found).length_eq
    rw [List.length_cons] at same
    omega
  · omega

/-- A session is entered for the launch of its process, in the place of an earlier one. -/
theorem Kept.insert {loose left : List ℕ} (kept : Kept system loose) {sessionKey : String}
    {entry : SessionEntry} {launch : Launch}
    (started : system.Started entry.session launch sessionKey)
    (isFingerprint : entry.fingerprint = launch.json.text)
    (room : (system.sessions.read sessionKey).isSome ∨
      system.sessions.entries.length < maxSessions)
    (taken : ∀ session, system.RegisteredAs session sessionKey ∨ session ∈ loose →
      session = entry.session ∨ session ∈ left) :
    Kept (system.insert sessionKey entry) left where
  limited := insert_length_le kept.limited room
  entries otherKey other found := by
    by_cases isKey : otherKey = sessionKey
    · rw [System.insert, isKey, Store.read_write_self, Option.some.injEq] at found
      rw [← found, isKey]
      exact ⟨launch, started, isFingerprint⟩
    · rw [System.insert, Store.read_write_of_ne isKey] at found
      exact kept.entries otherKey other found
  supported := kept.supported
  owned session process found isOpen := by
    have settle (either : system.RegisteredAs session sessionKey ∨ session ∈ loose) :
        (system.insert sessionKey entry).isHeld session = true ∨ session ∈ left := by
      rcases taken session either with rfl | leftMem
      · refine .inl (isHeld_iff.mpr (.inl ⟨sessionKey, entry, ?_, rfl⟩))
        rw [System.insert, Store.read_write_self]
      · exact .inr leftMem
    rcases kept.owned session process found isOpen with held | looseMem
    · rcases isHeld_iff.mp held with ⟨otherKey, other, otherFound, isSession⟩ | byTask
      · by_cases isKey : otherKey = sessionKey
        · exact settle (.inl ⟨other, isKey ▸ otherFound, isSession⟩)
        · refine .inl (isHeld_iff.mpr (.inl ⟨otherKey, other, ?_, isSession⟩))
          rw [System.insert, Store.read_write_of_ne isKey, otherFound]
      · exact .inl (isHeld_iff.mpr (.inr byTask))
    · exact settle (.inr looseMem)

theorem started_start {process : Process} {session : ℕ} {launch : Launch} {sessionKey : String}
    (started : system.Started session launch sessionKey) :
    (system.start process).Started session launch sessionKey := by
  rcases started with ⟨found, isFound, isStarted⟩
  refine ⟨found, ?_, isStarted⟩
  rw [System.start, List.getElem?_append_left (List.getElem?_eq_some_iff.mp isFound).1, isFound]

theorem Kept.start {loose : List ℕ} (kept : Kept system loose) (process : Process) :
    Kept (system.start process) (system.processes.length :: loose) where
  limited := kept.limited
  entries sessionKey entry registered := by
    rcases kept.entries sessionKey entry registered with ⟨launch, started, isFingerprint⟩
    exact ⟨launch, started_start started, isFingerprint⟩
  supported task taskMem :=
    (kept.supported task taskMem).mono fun _ _ _ => started_start
  owned session found isFound isOpen := by
    by_cases isOld : session < system.processes.length
    · rw [System.start, List.getElem?_append_left isOld] at isFound
      rcases kept.owned session found isFound isOpen with held | looseMem
      · exact .inl held
      · exact .inr (List.mem_cons_of_mem _ looseMem)
    · have inRange := (List.getElem?_eq_some_iff.mp isFound).1
      simp only [System.start, List.length_append, List.length_singleton] at inRange
      have isNew : session = system.processes.length := by omega
      exact .inr (by simp [isNew])

/-! ## What the steps keep -/

section Steps

variable {number : ℕ} {input : McpStdioInput} {outcome : System.Outcome}

theorem started_of_serves {loose : List ℕ} (kept : Kept system loose) {entry : SessionEntry}
    (registered : system.sessions.read input.sessionKey = some entry)
    (serves : system.serves entry input = true) :
    system.Started entry.session input.launch input.sessionKey := by
  simp only [System.serves, Bool.and_eq_true, decide_eq_true_eq] at serves
  rcases kept.entries _ entry registered with ⟨launch, started, isFingerprint⟩
  have sameText : launch.json.text = input.launch.json.text :=
    isFingerprint.symm.trans serves.1
  rwa [fingerprint_injective sameText] at started

theorem supports_nothing {phase : CallPhase} (nothing : phase.chosen = none) :
    system.Supports (.call input phase) := by
  intro session isChosen
  rw [nothing] at isChosen
  cases isChosen

theorem supports_session {phase : CallPhase} {session : ℕ} (isChosen : phase.chosen = some session)
    (started : system.Started session input.launch input.sessionKey) :
    system.Supports (.call input phase) := by
  intro other otherChosen
  rw [isChosen, Option.mem_some_iff] at otherChosen
  exact otherChosen ▸ started

theorem supports_close {sessionKey : String} {phase : ClosePhase} :
    system.Supports (.close sessionKey phase) :=
  trivial

theorem Kept.chosen (kept : Kept system []) {phase : CallPhase} {session : ℕ}
    (found : system.tasks[number]? = some (.call input phase))
    (isChosen : phase.chosen = some session) :
    system.Started session input.launch input.sessionKey :=
  kept.supported _ (List.mem_of_getElem? found) session isChosen

theorem Kept.ended (kept : Kept system []) {phase : CallPhase}
    (found : system.tasks[number]? = some (.call input phase)) {held : List ℕ}
    (taken : phase.sessions ⊆ held) :
    Kept (system.finish number (.call input .ended) held) [] := by
  apply kept.finish found (supports_nothing rfl)
  rintro session (holds | looseMem)
  · exact .inr (taken holds)
  · cases looseMem

theorem Kept.lookUp (kept : Kept system [])
    (found : system.tasks[number]? = some (.call input .lookingUp)) :
    Kept (system.lookUp number input outcome) [] := by
  have stops (phase : CallPhase) (nothing : phase.chosen = none) :
      Kept (system.setTask number (.call input phase)) [] := by
    apply kept.setTask found (supports_nothing nothing)
    rintro session (holds | looseMem)
    · cases holds
    · cases looseMem
  rw [System.lookUp]
  split
  case isTrue =>
      split
      case h_1 entry registered =>
          split
          case isTrue serves =>
              apply kept.setTask found
                (supports_session rfl (started_of_serves kept registered serves))
              rintro session (holds | looseMem)
              · cases holds
              · cases looseMem
          case isFalse =>
              apply (kept.remove registered).setTask found (supports_nothing rfl)
              rintro session (holds | looseMem)
              · cases holds
              · exact .inl looseMem
      case h_2 =>
          split
          · exact stops .ended rfl
          · exact stops .opening rfl
  case isFalse => exact stops .ended rfl

theorem Kept.closePrevious (kept : Kept system []) {previous : ℕ}
    (found : system.tasks[number]? = some (.call input (.closingPrevious previous))) :
    Kept (system.closePrevious number input outcome previous) [] := by
  rw [System.closePrevious]
  split
  case isTrue =>
      have closed : Kept (system.close previous) [] :=
        kept.close fun _ looseMem => absurd looseMem List.not_mem_nil
      have stillFound : (system.close previous).tasks[number]? =
          some (.call input (.closingPrevious previous)) := found
      apply closed.finish stillFound
        (supports_nothing rfl)
      rintro session (holds | looseMem)
      · exact .inr holds
      · cases looseMem
  case isFalse => exact kept.ended found (List.Subset.refl _)

theorem Kept.spawn (kept : Kept system [])
    (found : system.tasks[number]? = some (.call input .opening)) :
    Kept (system.spawn number input outcome) [] := by
  rw [System.spawn]
  split
  case isTrue =>
      apply (kept.start _).setTask found
      · apply supports_session rfl
        refine ⟨⟨input.launch, input.sessionKey, number, false, false⟩, ?_, rfl, rfl⟩
        rw [System.start, List.getElem?_concat_length]
      · rintro session (holds | looseMem)
        · cases holds
        · exact .inl looseMem
  case isFalse => exact kept.ended found (List.Subset.refl _)

theorem Kept.waitInitialized (kept : Kept system []) {opened : ℕ}
    (found : system.tasks[number]? = some (.call input (.initializing opened))) :
    Kept (system.waitInitialized number input outcome opened) [] := by
  rw [System.waitInitialized]
  split
  case isTrue =>
      apply kept.setTask found (supports_session rfl (kept.chosen found rfl))
      rintro session (holds | looseMem)
      · exact .inl holds
      · cases looseMem
  case isFalse => exact kept.ended found (List.Subset.refl _)

theorem Kept.register (kept : Kept system []) {opened : ℕ}
    (found : system.tasks[number]? = some (.call input (.registering opened))) :
    Kept (system.register number input outcome opened) [] := by
  have started := kept.chosen found rfl
  rw [System.register]
  split
  case isTrue =>
      split
      case h_1 existing registered =>
          split
          case isTrue serves =>
              apply kept.setTask found
                (supports_session rfl (started_of_serves kept registered serves))
              rintro session (holds | looseMem)
              · exact .inl (List.mem_cons_of_mem _ holds)
              · cases looseMem
          case isFalse =>
              have inserted : Kept (system.insert input.sessionKey
                  ⟨sessionFingerprint input, opened⟩) [existing.session] := by
                apply kept.insert started rfl (.inl (by rw [registered]; rfl))
                rintro session (⟨entry, isRegistered, rfl⟩ | looseMem)
                · rw [registered, Option.some.injEq] at isRegistered
                  exact .inr (by simp [isRegistered])
                · cases looseMem
              apply inserted.setTask found (supports_session rfl started)
              rintro session (holds | looseMem)
              · exact .inl (List.mem_cons.mpr (.inl (List.mem_singleton.mp holds)))
              · exact .inl (List.mem_cons_of_mem _ looseMem)
      case h_2 missing =>
          split
          case isTrue => exact kept.ended found (List.Subset.refl _)
          case isFalse room =>
              have inserted : Kept (system.insert input.sessionKey
                  ⟨sessionFingerprint input, opened⟩) [] := by
                apply kept.insert started rfl (.inr (by omega))
                rintro session (⟨entry, isRegistered, rfl⟩ | looseMem)
                · rw [missing] at isRegistered
                  cases isRegistered
                · cases looseMem
              apply inserted.setTask found (supports_session rfl started)
              rintro session (holds | looseMem)
              · exact .inl holds
              · cases looseMem
  case isFalse => exact kept.ended found (List.Subset.refl _)

theorem Kept.closeReplaced (kept : Kept system []) {active replaced : ℕ}
    (found : system.tasks[number]? = some (.call input (.closingReplaced active replaced))) :
    Kept (system.closeReplaced number input outcome active replaced) [] := by
  rw [System.closeReplaced]
  split
  case isTrue =>
      have closed : Kept (system.close replaced) [] :=
        kept.close fun _ looseMem => absurd looseMem List.not_mem_nil
      have stillFound : (system.close replaced).tasks[number]? =
          some (.call input (.closingReplaced active replaced)) := found
      apply closed.finish stillFound
        (supports_session rfl (closed.chosen found rfl))
      rintro session (holds | looseMem)
      · rcases List.mem_cons.mp holds with rfl | isReplaced
        · exact .inl List.mem_cons_self
        · exact .inr isReplaced
      · cases looseMem
  case isFalse => exact kept.ended found (by simp [CallPhase.sessions])

theorem Kept.execute (kept : Kept system []) {session : ℕ}
    (found : system.tasks[number]? = some (.call input (.executing session))) :
    Kept (system.execute number input outcome session) [] := by
  rw [System.execute]
  split
  case isTrue =>
      split
      case isTrue => exact kept.ended found (List.Subset.refl _)
      case isFalse =>
          apply kept.setTask found (supports_session rfl (kept.chosen found rfl))
          rintro other (holds | looseMem)
          · exact .inl holds
          · cases looseMem
  case isFalse => exact kept.ended found (List.Subset.refl _)

theorem Kept.removeIfSame (kept : Kept system []) {session : ℕ}
    (found : system.tasks[number]? = some (.call input (.removing session))) :
    Kept (system.removeIfSame number input outcome session) [] := by
  rw [System.removeIfSame]
  split
  case isTrue same =>
      rcases (Option.any_eq_true _ _).mp same.2 with ⟨entry, registered, isSession⟩
      apply (kept.remove registered).finish found (supports_nothing rfl)
      rintro other (holds | looseMem)
      · exact .inr holds
      · rw [of_decide_eq_true isSession] at looseMem
        exact .inr looseMem
  case isFalse => exact kept.ended found (List.Subset.refl _)

theorem Kept.advanceClose (kept : Kept system []) {sessionKey : String} {phase : ClosePhase}
    (found : system.tasks[number]? = some (.close sessionKey phase)) :
    Kept (system.advanceClose number outcome sessionKey phase) [] := by
  cases phase with
  | taking =>
      have stops : Kept (system.setTask number (.close sessionKey .ended)) [] := by
        apply kept.setTask found supports_close
        rintro session (holds | looseMem)
        · cases holds
        · cases looseMem
      rw [System.advanceClose, System.take]
      split
      case isTrue =>
          split
          case h_1 entry registered =>
              apply (kept.remove registered).setTask found supports_close
              rintro session (holds | looseMem)
              · cases holds
              · exact .inl looseMem
          case h_2 => exact stops
      case isFalse => exact stops
  | closing session =>
      have taken (other : ℕ)
          (either : other ∈ (Task.close sessionKey (.closing session)).sessions ∨ other ∈ []) :
          other ∈ (Task.close sessionKey .ended).sessions ∨ other ∈ [session] := by
        rcases either with holds | looseMem
        · exact .inr holds
        · cases looseMem
      rw [System.advanceClose, System.closeTaken]
      split
      case isTrue =>
          have closed : Kept (system.close session) [] :=
            kept.close fun _ looseMem => absurd looseMem List.not_mem_nil
          exact closed.finish found supports_close taken
      case isFalse => exact kept.finish found supports_close taken
  | ended => exact kept

theorem Kept.advanceCall (kept : Kept system []) {phase : CallPhase}
    (found : system.tasks[number]? = some (.call input phase)) :
    Kept (system.advanceCall number input outcome phase) [] := by
  cases phase with
  | lookingUp => exact kept.lookUp found
  | closingPrevious previous => exact kept.closePrevious found
  | opening => exact kept.spawn found
  | initializing opened => exact kept.waitInitialized found
  | registering opened => exact kept.register found
  | closingReplaced active replaced => exact kept.closeReplaced found
  | executing session => exact kept.execute found
  | removing session => exact kept.removeIfSame found
  | ended => exact kept

end Steps

theorem Kept.begin (kept : Kept system []) {task : Task} (supported : system.Supports task) :
    Kept { system with tasks := system.tasks ++ [task] } [] where
  limited := kept.limited
  entries := kept.entries
  supported other otherMem := by
    rcases List.mem_append.mp otherMem with older | isNew
    · exact kept.supported other older
    · rw [List.mem_singleton.mp isNew]
      exact supported
  owned session process found isOpen := by
    rcases kept.owned session process found isOpen with held | looseMem
    · apply Or.inl
      apply isHeld_iff.mpr
      refine (isHeld_iff.mp held).imp_right ?_
      rintro ⟨other, otherMem, holds⟩
      exact ⟨other, List.mem_append_left _ otherMem, holds⟩
    · cases looseMem

theorem Kept.step (kept : Kept system []) (action : Action) : Kept (system.step action) [] := by
  cases action with
  | call input =>
      rw [System.step]
      split
      · exact kept
      · exact kept.begin (supports_nothing rfl)
  | close sessionKey =>
      rw [System.step]
      split
      · exact kept.begin supports_close
      · exact kept
  | advance number outcome =>
      rw [System.step]
      split
      case h_1 input phase found => exact kept.advanceCall found
      case h_2 sessionKey phase found => exact kept.advanceClose found
      case h_3 => exact kept
  | transportFails session =>
      exact kept.modify session _ (fun _ => ⟨rfl, rfl⟩) fun _ isOpen => isOpen

theorem kept_empty : Kept System.empty [] where
  limited := Nat.zero_le _
  entries _ _ registered := nomatch registered
  supported _ taskMem := nomatch taskMem
  owned _ _ found := by simp [System.empty] at found

end Brunomnia.McpStdio.Registry
