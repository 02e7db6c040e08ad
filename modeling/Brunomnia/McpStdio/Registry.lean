import Brunomnia.Library.Runs
import Brunomnia.Library.Stores
import Brunomnia.McpStdio.Fingerprint

/-!
# The registry of sessions

A call looks its session up under a key, or closes the predecessor, starts a process and enters
it; a close takes the entry out. Every section under the lock of the registry or of a session is
a step of its own, and the steps of all calls follow each other in any order. A process is
numbered by the place at which it was started. Its session is shared: it is closed when it is
asked to, or when the last entry and the last call that hold it have let go of it.
-/

namespace Brunomnia.McpStdio.Registry

open Library

/-! ## The state -/

def maxSessions : ℕ := 100

def maxSessionKeyBytes : ℕ := 512

/-- A process with its session. The call that started it is kept next to what the code has. -/
structure Process where
  launch : Launch
  sessionKey : String
  openedBy : ℕ
  transportError : Bool
  closed : Bool

structure SessionEntry where
  fingerprint : String
  session : ℕ

inductive CallPhase where
  | lookingUp
  | closingPrevious (previous : ℕ)
  | opening
  | initializing (opened : ℕ)
  | registering (opened : ℕ)
  | closingReplaced (active replaced : ℕ)
  | executing (session : ℕ)
  | removing (session : ℕ)
  | ended

inductive ClosePhase where
  | taking
  | closing (session : ℕ)
  | ended

inductive Task where
  | call (input : McpStdioInput) (phase : CallPhase)
  | close (sessionKey : String) (phase : ClosePhase)

def CallPhase.sessions : CallPhase → List ℕ
  | .closingPrevious previous => [previous]
  | .initializing opened | .registering opened => [opened]
  | .closingReplaced active replaced => [active, replaced]
  | .executing session | .removing session => [session]
  | .lookingUp | .opening | .ended => []

/-- The sessions that a call or a close holds. -/
def Task.sessions : Task → List ℕ
  | .call _ phase => phase.sessions
  | .close _ (.closing session) => [session]
  | .close _ _ => []

structure System where
  sessions : Store String SessionEntry
  processes : List Process
  tasks : List Task

def System.empty : System := ⟨Store.empty, [], []⟩

namespace System

variable (system : System)

def setTask (number : ℕ) (task : Task) : System :=
  { system with tasks := system.tasks.set number task }

def insert (sessionKey : String) (entry : SessionEntry) : System :=
  { system with sessions := system.sessions.write sessionKey entry }

def remove (sessionKey : String) : System :=
  { system with sessions := system.sessions.remove sessionKey }

def start (process : Process) : System :=
  { system with processes := system.processes ++ [process] }

def close (session : ℕ) : System :=
  { system with processes := system.processes.modify session fun process =>
      { process with closed := true } }

def isHeld (session : ℕ) : Bool :=
  system.sessions.entries.any (fun entry => entry.2.session = session) ||
    system.tasks.any fun task => task.sessions.contains session

/-- Let go of a session, which is closed with the last one that holds it. -/
def drop (session : ℕ) : System :=
  if system.isHeld session then system else system.close session

/-- A task that ends lets go of the sessions that it held. -/
def finish (number : ℕ) (task : Task) (held : List ℕ) : System :=
  held.foldl drop (system.setTask number task)

/-! ## The steps of a call -/

/-- What a step meets: the lock that it takes is not poisoned, what it starts succeeds, the
process runs, and the server answers. -/
structure Outcome where
  locks : Bool
  succeeds : Bool
  running : Option Bool
  result : Except String Unit

def persistentResultIsReusable : Except String Unit → Bool
  | .ok _ => true
  | .error error =>
      error = "MCP STDIO request canceled." ||
        "The MCP server returned an error:".toList.isPrefixOf error.toList

def sessionEntryIsReusable (entry : SessionEntry) : Bool :=
  (system.processes[entry.session]?).any fun process => !process.transportError

/-- The entry may serve a call. -/
def serves (entry : SessionEntry) (input : McpStdioInput) : Bool :=
  entry.fingerprint = sessionFingerprint input && system.sessionEntryIsReusable entry

variable (number : ℕ) (input : McpStdioInput) (outcome : Outcome)

def lookUp : System :=
  if outcome.locks then
    match system.sessions.read input.sessionKey with
    | some entry =>
        if system.serves entry input then
          system.setTask number (.call input (.executing entry.session))
        else
          (system.remove input.sessionKey).setTask number
            (.call input (.closingPrevious entry.session))
    | none =>
        if maxSessions ≤ system.sessions.entries.length then
          system.setTask number (.call input .ended)
        else system.setTask number (.call input .opening)
  else system.setTask number (.call input .ended)

def closePrevious (previous : ℕ) : System :=
  if outcome.locks then
    (system.close previous).finish number (.call input .opening) [previous]
  else system.finish number (.call input .ended) [previous]

def spawn : System :=
  if outcome.succeeds then
    (system.start ⟨input.launch, input.sessionKey, number, false, false⟩).setTask number
      (.call input (.initializing system.processes.length))
  else system.setTask number (.call input .ended)

def waitInitialized (opened : ℕ) : System :=
  if outcome.succeeds then system.setTask number (.call input (.registering opened))
  else system.finish number (.call input .ended) [opened]

def register (opened : ℕ) : System :=
  if outcome.locks then
    match system.sessions.read input.sessionKey with
    | some existing =>
        if system.serves existing input then
          system.setTask number (.call input (.closingReplaced existing.session opened))
        else
          (system.insert input.sessionKey ⟨sessionFingerprint input, opened⟩).setTask number
            (.call input (.closingReplaced opened existing.session))
    | none =>
        if maxSessions ≤ system.sessions.entries.length then
          system.finish number (.call input .ended) [opened]
        else
          (system.insert input.sessionKey ⟨sessionFingerprint input, opened⟩).setTask number
            (.call input (.executing opened))
  else system.finish number (.call input .ended) [opened]

def closeReplaced (active replaced : ℕ) : System :=
  if outcome.locks then
    (system.close replaced).finish number (.call input (.executing active)) [replaced]
  else system.finish number (.call input .ended) [replaced, active]

def execute (session : ℕ) : System :=
  if outcome.locks then
    if outcome.running = some true ∧ persistentResultIsReusable outcome.result then
      system.finish number (.call input .ended) [session]
    else system.setTask number (.call input (.removing session))
  else system.finish number (.call input .ended) [session]

def removeIfSame (session : ℕ) : System :=
  if outcome.locks ∧
      (system.sessions.read input.sessionKey).any fun candidate => candidate.session = session then
    (system.remove input.sessionKey).finish number (.call input .ended) [session]
  else system.finish number (.call input .ended) [session]

def advanceCall : CallPhase → System
  | .lookingUp => system.lookUp number input outcome
  | .closingPrevious previous => system.closePrevious number input outcome previous
  | .opening => system.spawn number input outcome
  | .initializing opened => system.waitInitialized number input outcome opened
  | .registering opened => system.register number input outcome opened
  | .closingReplaced active replaced => system.closeReplaced number input outcome active replaced
  | .executing session => system.execute number input outcome session
  | .removing session => system.removeIfSame number input outcome session
  | .ended => system

/-! ## The steps of a close -/

variable (sessionKey : String)

def take : System :=
  if outcome.locks then
    match system.sessions.read sessionKey with
    | some entry =>
        (system.remove sessionKey).setTask number (.close sessionKey (.closing entry.session))
    | none => system.setTask number (.close sessionKey .ended)
  else system.setTask number (.close sessionKey .ended)

def closeTaken (session : ℕ) : System :=
  if outcome.locks then (system.close session).finish number (.close sessionKey .ended) [session]
  else system.finish number (.close sessionKey .ended) [session]

def advanceClose : ClosePhase → System
  | .taking => system.take number outcome sessionKey
  | .closing session => system.closeTaken number outcome sessionKey session
  | .ended => system

end System

/-! ## Runs -/

inductive Action where
  | call (input : McpStdioInput)
  | close (sessionKey : String)
  | advance (number : ℕ) (outcome : System.Outcome)
  | transportFails (session : ℕ)

/-- A close of a key that no call can have is refused. -/
def isSessionKey (sessionKey : String) : Bool :=
  !sessionKey.isEmpty && !sessionKey.toList.contains '\x00' &&
    sessionKey.utf8ByteSize ≤ maxSessionKeyBytes

/-- A call without a key has a process of its own, which the registry does not know. -/
def System.step (system : System) : Action → System
  | .call input =>
      if input.sessionKey.isEmpty then system
      else { system with tasks := system.tasks ++ [.call input .lookingUp] }
  | .close sessionKey =>
      if isSessionKey sessionKey then
        { system with tasks := system.tasks ++ [.close sessionKey .taking] }
      else system
  | .advance number outcome =>
      match system.tasks[number]? with
      | some (.call input phase) => system.advanceCall number input outcome phase
      | some (.close sessionKey phase) => system.advanceClose number outcome sessionKey phase
      | none => system
  | .transportFails session =>
      { system with processes := system.processes.modify session fun process =>
          { process with transportError := true } }

end Brunomnia.McpStdio.Registry
