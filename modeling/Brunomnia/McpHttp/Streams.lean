import Brunomnia.Library.Runs
import Brunomnia.Library.Stores
import Mathlib.Data.List.MinMax

/-!
# Event streams of the MCP HTTP client

The client has at most one event stream for every session. Each stream runs in a task of its own,
and a registry behind a lock has an entry for it, through which it can be told to cancel. To start a
stream is several steps: its identity is drawn, the entry is put into the registry, the streams
whose entries it takes out are told to cancel, and the task is spawned. A task unregisters itself
some time after its stream has ended. The steps of all tasks come in any order.
-/

namespace Brunomnia.McpHttp

open Library

def maxActiveStreams : ℕ := 100

def maxSessionKeyBytes : ℕ := 8192

/-- `validate_session_key` -/
def isSessionKey (sessionKey : String) : Bool :=
  sessionKey ≠ "" ∧ sessionKey.utf8ByteSize ≤ maxSessionKeyBytes ∧ '\x00' ∉ sessionKey.toList

/-- Where a stream is: before its entry is in the registry, before the streams are told whose
entries were taken out, before its task, in its task, and behind the removal of its entry. -/
inductive Phase where
  | drawn
  | inserted (taken : List ℕ)
  | told
  | running
  | ended
  | unregistered
  deriving DecidableEq

/-- A stream, whether it was told to cancel, and the channel of its events. -/
structure Stream (Channel : Type) where
  sessionKey : String
  identity : ℕ
  channel : Channel
  phase : Phase
  cancelled : Bool

/-- The entry has the sender of its stream. -/
structure SessionEntry where
  identity : ℕ
  lastUsed : ℕ
  stream : ℕ
  deriving DecidableEq

/-- `generation.fetch_add(1) + 1`: numbers of 64 bits, which wrap around. -/
def nextNumber (generation : ℕ) : ℕ := (generation + 1) % 2 ^ 64

/-- The generation gives out numbers. Updates of channels wait for the lock of the channel. -/
structure System (Channel : Type) where
  generation : ℕ
  active : Store String SessionEntry
  streams : List (Stream Channel)
  updates : List (ℕ × Channel)

variable {Channel : Type}

def System.initial : System Channel := ⟨0, Store.empty, [], []⟩

namespace System

variable (system : System Channel)

def modify (number : ℕ) (change : Stream Channel → Stream Channel) : System Channel :=
  { system with streams := system.streams.modify number change }

def setPhase (number : ℕ) (phase : Phase) : System Channel :=
  system.modify number fun stream => { stream with phase := phase }

/-- `cancel.send(())` -/
def tell (number : ℕ) : System Channel :=
  system.modify number fun stream => { stream with cancelled := true }

/-- The receiver of the stream has not been dropped. -/
def receives (number : ℕ) : Bool :=
  (system.streams[number]?).any fun stream =>
    stream.phase ≠ .ended ∧ stream.phase ≠ .unregistered

/-! ## Starting a stream -/

/-- A session key that is not valid is refused. -/
def draw (sessionKey : String) (channel : Channel) : System Channel :=
  if isSessionKey sessionKey then
    { system with
      generation := nextNumber system.generation
      streams := system.streams ++
        [⟨sessionKey, nextNumber system.generation, channel, .drawn, false⟩] }
  else system

/-- The entry that was used least recently, if there is no room for a new one. -/
def evicted (sessionKey : String) : Option (String × SessionEntry) :=
  if (system.active.read sessionKey).isNone ∧
      maxActiveStreams ≤ system.active.entries.length then
    system.active.entries.argmin fun entry => entry.2.lastUsed
  else none

/-- The registry without the entry that has to make room. -/
def withRoom (sessionKey : String) : Store String SessionEntry :=
  match system.evicted sessionKey with
  | some (key, _) => system.active.remove key
  | none => system.active

def replaced (sessionKey : String) : Option SessionEntry :=
  (system.withRoom sessionKey).read sessionKey

/-- The streams whose entries a new stream takes out. -/
def taken (sessionKey : String) : List ℕ :=
  (system.replaced sessionKey).toList.map SessionEntry.stream ++
    (system.evicted sessionKey).toList.map fun entry => entry.2.stream

/-- The part of `start` that holds the lock. -/
def insert (number : ℕ) (stream : Stream Channel) : System Channel :=
  { system with
    active := (system.withRoom stream.sessionKey).write stream.sessionKey
      ⟨stream.identity, stream.identity, number⟩ }.setPhase number
        (.inserted (system.taken stream.sessionKey))

def cancelTaken (number : ℕ) (taken : List ℕ) : System Channel :=
  (taken.foldl tell system).setPhase number .told

/-! ## The other operations -/

/-- A task only takes out the entry that has its own identity. -/
def unregister (number : ℕ) (stream : Stream Channel) : System Channel :=
  if (system.active.read stream.sessionKey).any fun entry => entry.identity = stream.identity then
    { system with active := system.active.remove stream.sessionKey }.setPhase number .unregistered
  else system.setPhase number .unregistered

/-- The stream that `close` tells to cancel, if there is one. -/
def closed (sessionKey : String) : Option ℕ :=
  if isSessionKey sessionKey then (system.active.read sessionKey).map SessionEntry.stream else none

/-- What `close` returns. -/
def closes (sessionKey : String) : Bool :=
  (system.closed sessionKey).any system.receives

def close (sessionKey : String) : System Channel :=
  match system.closed sessionKey with
  | some number => { system with active := system.active.remove sessionKey }.tell number
  | none => system

/-- The part of `update_channel` that holds the lock of the registry. -/
def updateChannel (sessionKey : String) (channel : Channel) : System Channel :=
  match system.active.read sessionKey with
  | some entry =>
      { system with
        generation := nextNumber system.generation
        active := system.active.replace sessionKey
          { entry with lastUsed := nextNumber system.generation }
        updates := system.updates ++ [(entry.stream, channel)] }
  | none => system

/-- The part that holds the lock of the channel. -/
def assignChannel (update : ℕ) : System Channel :=
  match system.updates[update]? with
  | some (number, channel) =>
      { system with updates := system.updates.eraseIdx update }.modify number
        fun stream => { stream with channel := channel }
  | none => system

end System

/-! ## Steps -/

inductive Action (Channel : Type) where
  | draw (sessionKey : String) (channel : Channel)
  | insert (number : ℕ)
  | cancelTaken (number : ℕ)
  | spawn (number : ℕ)
  | stop (number : ℕ)
  | unregister (number : ℕ)
  | close (sessionKey : String)
  | updateChannel (sessionKey : String) (channel : Channel)
  | assignChannel (update : ℕ)

/-- A step may draw a number. -/
def Action.draws : Action Channel → Bool
  | .draw _ _ | .updateChannel _ _ => true
  | _ => false

/-- The next step of a stream. A stream may end at any time, told or not. -/
def advance (system : System Channel) (number : ℕ) (action : Action Channel)
    (stream : Stream Channel) : System Channel :=
  match action, stream.phase with
  | .insert _, .drawn => system.insert number stream
  | .cancelTaken _, .inserted taken => system.cancelTaken number taken
  | .spawn _, .told => system.setPhase number .running
  | .stop _, .running => system.setPhase number .ended
  | .unregister _, .ended => system.unregister number stream
  | _, _ => system

/-- A step that a stream cannot take changes nothing. -/
def step (system : System Channel) (action : Action Channel) : System Channel :=
  match action with
  | .draw sessionKey channel => system.draw sessionKey channel
  | .close sessionKey => system.close sessionKey
  | .updateChannel sessionKey channel => system.updateChannel sessionKey channel
  | .assignChannel update => system.assignChannel update
  | .insert number | .cancelTaken number | .spawn number | .stop number | .unregister number =>
      match system.streams[number]? with
      | some stream => advance system number action stream
      | none => system

end Brunomnia.McpHttp
