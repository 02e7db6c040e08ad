import Brunomnia.Library.Runs

/-!
# Streaming sessions

The WebSocket, Socket.IO and event-stream handlers each keep a table of the sessions that run,
with the sender of the task behind every one. A connect looks into the table and, after its
handshake, enters the new session. A disconnect takes the entry out and tells the task to close,
and a task that ends removes the entry under its session id. Each of these holds the lock of the
table for itself alone, so other handlers can run between any two of them.
-/

namespace Brunomnia.Streaming

inductive StreamKind where
  | websocket
  | socketIo
  | sse
  deriving DecidableEq

namespace StreamKind

def alreadyConnected : StreamKind → String
  | websocket => "This WebSocket session is already connected."
  | socketIo => "This Socket.IO session is already connected."
  | sse => "This SSE stream is already connected."

def notConnected : StreamKind → String
  | websocket => "The WebSocket is not connected."
  | socketIo => "Socket.IO is not connected."
  | sse => "The SSE stream is not connected."

end StreamKind

/-- The tables of senders by session id. A sender is the number of its connection. -/
structure StreamingState where
  sessions : StreamKind → String → Option ℕ

namespace StreamingState

def empty : StreamingState := ⟨fun _ _ => none⟩

/-- `sessions.lock().await.insert(..)` and `.remove(..)`. -/
def setEntry (state : StreamingState) (kind : StreamKind) (sessionId : String)
    (sender : Option ℕ) : StreamingState :=
  ⟨fun otherKind otherId =>
    if otherKind = kind ∧ otherId = sessionId then sender else state.sessions otherKind otherId⟩

/-- The check at the start of `connect_websocket`, `connect_socket_io` and `connect_sse`. -/
def checkConnect (state : StreamingState) (kind : StreamKind) (sessionId : String) :
    Except String Unit :=
  if (state.sessions kind sessionId).isSome then .error kind.alreadyConnected else .ok ()

/-- `disconnect_websocket`, `disconnect_socket_io` and `disconnect_sse`: the sender that gets
`Close`. -/
def disconnect (state : StreamingState) (kind : StreamKind) (sessionId : String) :
    Except String (ℕ × StreamingState) :=
  match state.sessions kind sessionId with
  | none => .error kind.notConnected
  | some sender => .ok (sender, state.setEntry kind sessionId none)

/-- The sender that `send_websocket_message`, `send_socket_io_message` and
`set_socket_io_listener` find; an event stream is sent nothing. -/
def sender (state : StreamingState) (kind : StreamKind) (sessionId : String) : Option ℕ :=
  state.sessions kind sessionId

@[simp]
theorem setEntry_self (state : StreamingState) (kind : StreamKind) (sessionId : String)
    (sender : Option ℕ) :
    (state.setEntry kind sessionId sender).sessions kind sessionId = sender := by
  simp [setEntry]

theorem setEntry_of_ne (state : StreamingState) {kind otherKind : StreamKind}
    {sessionId otherId : String} (sender : Option ℕ)
    (different : ¬ (otherKind = kind ∧ otherId = sessionId)) :
    (state.setEntry kind sessionId sender).sessions otherKind otherId =
      state.sessions otherKind otherId := by
  simp [setEntry, different]

end StreamingState

/-! ## Connections -/

/-- How far a connection has come: its handshake is under way, its task runs, its task was told
to close, or it is over. -/
inductive Phase where
  | connecting
  | live
  | closing
  | ended
  deriving DecidableEq

structure Connection where
  kind : StreamKind
  sessionId : String
  phase : Phase

/-- The connections so far, in the order in which their connects passed the check. -/
structure StreamingSystem where
  state : StreamingState
  connections : List Connection

namespace StreamingSystem

def initial : StreamingSystem := ⟨.empty, []⟩

def setPhase (system : StreamingSystem) (number : ℕ) (phase : Phase) : StreamingSystem :=
  { system with
    connections := system.connections.modify number fun connection =>
      { connection with phase } }

end StreamingSystem

/-- What a handler or a task does while it holds the lock, or how a handshake fails. -/
inductive StreamStep where
  | check (kind : StreamKind) (sessionId : String)
  | handshakeFails (number : ℕ)
  | insert (number : ℕ)
  | disconnect (kind : StreamKind) (sessionId : String)
  | taskEnds (number : ℕ)
  deriving DecidableEq

namespace StreamingSystem

def check (system : StreamingSystem) (kind : StreamKind) (sessionId : String) :
    StreamingSystem :=
  match system.state.checkConnect kind sessionId with
  | .error _ => system
  | .ok () =>
      { system with connections := system.connections ++ [⟨kind, sessionId, .connecting⟩] }

def handshakeFails (system : StreamingSystem) (number : ℕ) : StreamingSystem :=
  match system.connections[number]? with
  | some ⟨_, _, .connecting⟩ => system.setPhase number .ended
  | _ => system

def insert (system : StreamingSystem) (number : ℕ) : StreamingSystem :=
  match system.connections[number]? with
  | some ⟨kind, sessionId, .connecting⟩ =>
      { system.setPhase number .live with
        state := system.state.setEntry kind sessionId (some number) }
  | _ => system

def disconnect (system : StreamingSystem) (kind : StreamKind) (sessionId : String) :
    StreamingSystem :=
  match system.state.disconnect kind sessionId with
  | .error _ => system
  | .ok (sender, state) => { system.setPhase sender .closing with state }

/-- A task ends because its peer closed or because it was told to. -/
def taskEnds (system : StreamingSystem) (number : ℕ) : StreamingSystem :=
  match system.connections[number]? with
  | some ⟨kind, sessionId, .live⟩ | some ⟨kind, sessionId, .closing⟩ =>
      { system.setPhase number .ended with
        state := system.state.setEntry kind sessionId none }
  | _ => system

def step (system : StreamingSystem) : StreamStep → StreamingSystem
  | .check kind sessionId => system.check kind sessionId
  | .handshakeFails number => system.handshakeFails number
  | .insert number => system.insert number
  | .disconnect kind sessionId => system.disconnect kind sessionId
  | .taskEnds number => system.taskEnds number

end StreamingSystem

end Brunomnia.Streaming
