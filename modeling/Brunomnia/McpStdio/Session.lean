import Brunomnia.Library.Runs
import Brunomnia.Library.Stores
import Brunomnia.McpStdio.Messages

/-!
# A session of an MCP server

The client keeps one process of the server and talks to it from several threads: the calls, one
at a time under the lock of the session, the dispatcher that reads what the server sends, and the
responses to reviewed requests. Every section under a lock is a step of its own, and the steps of
the threads follow each other in any order. The identity of a request is the position of its
message among all that were received; it is kept next to the values to tell apart two requests
that the server sent under one id.
-/

namespace Brunomnia.McpStdio

open Serde Library

/-! ## The writer -/

/-- A line for the server, with the request that it answers. -/
structure Sent where
  message : Value
  answers : Option ℕ

/-- The buffered writer keeps what could not be written and writes it before anything else. -/
structure Writer where
  unsent : List Sent
  wire : List Sent

/-- How writing a line ends. A failure may come after some of the kept lines went through, and
before or after the new line was put into the buffer. -/
inductive WriteOutcome where
  | written
  | failed (error : String) (through : ℕ) (kept : Bool)

def Writer.send (writer : Writer) (sent : Sent) : WriteOutcome → Writer
  | .written => ⟨[], writer.wire ++ writer.unsent ++ [sent]⟩
  | .failed _ through kept =>
      ⟨writer.unsent.drop through ++ (if kept then [sent] else []),
        writer.wire ++ writer.unsent.take through⟩

def WriteOutcome.result : WriteOutcome → Except String Unit
  | .written => .ok ()
  | .failed error _ _ => .error error

/-! ## The threads -/

/-- A reviewable request of the server. -/
structure Request where
  arrival : ℕ
  value : Value

/-- What the dispatcher does next. -/
inductive Dispatcher where
  | receiving
  | dispatching (arrival : ℕ) (value : Value)
  | replying (reply : Value)
  | delivering (call : ℕ) (value : Value)
  | failing (error : String)
  | recording (error : String)
  | draining (error : String)
  | stopped

inductive CallPhase where
  | checking
  | registering
  | rechecking
  | sending
  | waiting
  | leaving (error : String) (notify : Bool)
  | notifying (error : String)
  | returned (result : Except String Value)

/-- A call of the client; its channel holds what was sent to it and not yet taken. -/
structure Call where
  id : ℕ
  request : Value
  phase : CallPhase
  channel : Option (Except String Value)

def Call.key (call : Call) : String := (Value.integer call.id).text

def Call.hasReturned (call : Call) : Bool :=
  match call.phase with
  | .returned _ => true
  | _ => false

inductive RespondPhase where
  | taking (key : String)
  | holding (key : String) (request : Request)
  | restoring (key : String) (request : Request) (error : String)
  | returned (taken : Option (String × Request)) (result : Except String Unit)

structure Respond where
  input : ServerResponseInput
  phase : RespondPhase

/-- The session, with every message it received and the requests it accepted for review. -/
structure Session where
  sessionKey : String
  registered : Bool
  closing : Bool
  roots : List String
  writer : Writer
  serverRequests : Store String Request
  responseWaiters : Store String ℕ
  transportError : Option String
  dispatcher : Dispatcher
  nextId : ℕ
  calls : List Call
  responds : List Respond
  received : List Value
  accepted : List (String × ℕ)

namespace Session

variable (session : Session)

def setCall (number : ℕ) (phase : CallPhase) : Session :=
  { session with calls := session.calls.modify number fun call => { call with phase } }

def setRespond (number : ℕ) (phase : RespondPhase) : Session :=
  { session with
    responds := session.responds.modify number fun respond => { respond with phase } }

/-- Send to the channel of a call. -/
def sendTo (number : ℕ) (message : Except String Value) : Session :=
  { session with
    calls := session.calls.modify number fun call => { call with channel := some message } }

def write (message : Value) (answers : Option ℕ) (outcome : WriteOutcome) : Session :=
  { session with writer := session.writer.send ⟨message, answers⟩ outcome }

/-! ## The dispatcher -/

/-- What the reader of the standard output hands over. -/
inductive Incoming where
  | message (value : Value)
  | tooLong
  | invalidJson (error : String)
  | failed (error : String)
  | closed

/-- A message is received; when it cancels a request, that is removed. -/
def receive (incoming : Incoming) : Session :=
  match session.dispatcher with
  | .receiving =>
      match incoming with
      | .message value =>
          { session with
            dispatcher := .dispatching session.received.length value
            received := session.received ++ [value]
            serverRequests :=
              match cancelledKey value with
              | some key => session.serverRequests.remove key
              | none => session.serverRequests }
      | .tooLong =>
          { session with
            dispatcher := .failing "An MCP STDIO message exceeded the 10 MB safety limit." }
      | .invalidJson error =>
          { session with
            dispatcher := .failing ("The MCP STDIO server returned invalid JSON: " ++ error) }
      | .failed error => { session with dispatcher := .failing error }
      | .closed =>
          { session with
            dispatcher := .failing "The MCP STDIO server closed before returning a response." }
  | _ => session

/-- A reviewable request is kept unless too many are. -/
def accept (arrival : ℕ) (value : Value) (id : Value) : Session :=
  match serverRequestIdKey id with
  | .error error => { session with dispatcher := .failing error }
  | .ok key =>
      if session.serverRequests.entries.length ≥ maxServerRequests ∧
          (session.serverRequests.read key).isNone then
        { session with dispatcher := .replying (tooManyPending id) }
      else
        { session with
          dispatcher := .receiving
          serverRequests := session.serverRequests.write key ⟨arrival, value⟩
          accepted := session.accepted ++ [(key, arrival)] }

def takeWaiter (value : Value) (id : Value) : Session :=
  match serverRequestIdKey id with
  | .error error => { session with dispatcher := .failing error }
  | .ok key =>
      { session with
        responseWaiters := session.responseWaiters.remove key
        dispatcher :=
          match session.responseWaiters.read key with
          | some call => .delivering call value
          | none => .receiving }

/-- `dispatch_stdio_message` after its first section. -/
def dispatchStdioMessage (arrival : ℕ) (value : Value) : Session :=
  match value.get "id", methodOf value with
  | some id, some _ =>
      match serverRequestResponse value session.roots true with
      | some response => { session with dispatcher := .replying response }
      | none => session.accept arrival value id
  | some id, none => session.takeWaiter value id
  | none, _ => { session with dispatcher := .receiving }

/-- Every waiter is sent the error. -/
def drainWaiters (error : String) : Session :=
  { session with
    dispatcher := .stopped
    responseWaiters := .empty
    calls := session.calls.mapIdx fun number call =>
      if number ∈ session.responseWaiters.entries.map Prod.snd then
        { call with channel := some (.error error) }
      else call }

/-- The next step of the dispatcher; `fail_response_waiters` are the last three of them. -/
def dispatch (outcome : WriteOutcome) : Session :=
  match session.dispatcher with
  | .receiving => session
  | .dispatching arrival value => session.dispatchStdioMessage arrival value
  | .replying reply =>
      { session.write reply none outcome with
        dispatcher :=
          match outcome.result with
          | .ok _ => .receiving
          | .error error => .failing error }
  | .delivering call value =>
      { session.sendTo call (.ok value) with dispatcher := .receiving }
  | .failing error =>
      { session with dispatcher := if session.closing then .stopped else .recording error }
  | .recording error =>
      { session with transportError := some error, dispatcher := .draining error }
  | .draining error => session.drainWaiters error
  | .stopped => session

/-! ## The calls -/

/-- `execute` up to the wait for the response; the session lock admits one call at a time. -/
def begin (method : String) (params : Value) (roots : List String) (cancelled : Bool)
    (stderr : Except String Unit) : Session :=
  if ¬ session.calls.all Call.hasReturned then session
  else
    let id := session.nextId
    let called (phase : CallPhase) : List Call :=
      session.calls ++ [⟨id, clientRequest id method params, phase, none⟩]
    if cancelled then session
    else if id + 1 ≥ 2 ^ 64 then session
    else
      match stderr with
      | .error error =>
          { session with nextId := id + 1, calls := called (.returned (.error error)) }
      | .ok _ => { session with nextId := id + 1, roots, calls := called .checking }

/-- Why a waiting call goes on. -/
inductive Wake where
  | cancelled
  | deadline
  | poll (stderr : Except String Unit)

/-- The sender of a call is in the map of waiters or in the hands of the dispatcher. -/
def senderAlive (number : ℕ) : Bool :=
  decide (number ∈ session.responseWaiters.entries.map Prod.snd) ||
    (match session.dispatcher with
      | .delivering call _ => decide (call = number)
      | _ => false)

/-- A call takes what was sent to it. -/
def poll (number : ℕ) (call : Call) (stderr : Except String Unit) : Session :=
  match call.channel with
  | some (.ok value) =>
      session.setCall number (.returned (do
        let result ← responseResult value
        let _ ← stderr
        return result))
  | some (.error error) => session.setCall number (.returned (.error error))
  | none =>
      if session.senderAlive number then session
      else
        session.setCall number
          (.returned (.error "The MCP STDIO response dispatcher stopped unexpectedly."))

/-- The next step of `wait_for_client_response`. -/
def waitForClientResponse (number : ℕ) (call : Call) (wake : Wake) (outcome : WriteOutcome) :
    Session :=
  match call.phase with
  | .checking =>
      session.setCall number
        (match session.transportError with
          | some error => .returned (.error error)
          | none => .registering)
  | .registering =>
      { session.setCall number .rechecking with
        responseWaiters := session.responseWaiters.write call.key number }
  | .rechecking =>
      session.setCall number
        (match session.transportError with
          | some error => .leaving error false
          | none => .sending)
  | .sending =>
      (session.write call.request none outcome).setCall number
        (match outcome.result with
          | .ok _ => .waiting
          | .error error => .leaving error false)
  | .waiting =>
      match wake with
      | .cancelled => session.setCall number (.leaving "MCP STDIO request canceled." true)
      | .deadline =>
          session.setCall number (.leaving "The MCP STDIO request exceeded its time limit." false)
      | .poll stderr => session.poll number call stderr
  | .leaving error notify =>
      { session.setCall number
          (if notify then .notifying error else .returned (.error error)) with
        responseWaiters := session.responseWaiters.remove call.key }
  | .notifying error =>
      (session.write (cancelNotification call.id) none outcome).setCall number
        (.returned (.error error))
  | .returned _ => session

def advanceCall (number : ℕ) (wake : Wake) (outcome : WriteOutcome) : Session :=
  match session.calls[number]? with
  | some call => session.waitForClientResponse number call wake outcome
  | none => session

/-! ## Responses to reviewed requests -/

/-- What `respond_server_request` checks before it looks for the request. -/
def respondKey (input : ServerResponseInput) : Except String String :=
  if input.sessionKey = "" ∨ '\x00' ∈ input.sessionKey.toList ∨
      input.sessionKey.utf8ByteSize > maxSessionKeyBytes then
    .error "The MCP STDIO session identity exceeds its safety limit."
  else if input.result.isSome = input.error.isSome then
    .error "Provide exactly one MCP server-request result or error."
  else if ¬ (session.registered ∧ input.sessionKey = session.sessionKey) then
    .error "The MCP STDIO session is no longer connected."
  else serverRequestIdKey input.serverRequestId

def respond (input : ServerResponseInput) : Session :=
  { session with
    responds := session.responds ++
      [⟨input, match session.respondKey input with
        | .ok key => .taking key
        | .error error => .returned none (.error error)⟩] }

/-- The request leaves the map. -/
def takeRequest (number : ℕ) (key : String) : Session :=
  { session.setRespond number
      (match session.serverRequests.read key with
        | some request => .holding key request
        | none => .returned none (.error "The MCP server request is no longer pending.")) with
    serverRequests := session.serverRequests.remove key }

/-- The response is checked and written. -/
def answerRequest (number : ℕ) (input : ServerResponseInput) (key : String) (request : Request)
    (outcome : WriteOutcome) : Session :=
  if input.encodedBytes > maxResponseBytes then
    session.setRespond number
      (.returned (some (key, request))
        (.error "The MCP server response exceeds its 1 MB safety limit."))
  else
    (session.write input.response (some request.arrival) outcome).setRespond number
      (match outcome.result with
        | .ok _ => .returned (some (key, request)) (.ok ())
        | .error error => .restoring key request error)

def advanceRespond (number : ℕ) (outcome : WriteOutcome) : Session :=
  match session.responds[number]? with
  | none => session
  | some respond =>
      match respond.phase with
      | .taking key => session.takeRequest number key
      | .holding key request => session.answerRequest number respond.input key request outcome
      | .restoring key request error =>
          { session.setRespond number (.returned (some (key, request)) (.error error)) with
            serverRequests := session.serverRequests.write key request }
      | .returned _ _ => session

/-! ## Runs -/

inductive Action where
  | receive (incoming : Incoming)
  | dispatch (outcome : WriteOutcome)
  | begin (method : String) (params : Value) (roots : List String) (cancelled : Bool)
      (stderr : Except String Unit)
  | advanceCall (number : ℕ) (wake : Wake) (outcome : WriteOutcome)
  | respond (input : ServerResponseInput)
  | advanceRespond (number : ℕ) (outcome : WriteOutcome)
  | updateRoots (roots : List String)
  | notify (message : Value) (outcome : WriteOutcome)
  | unregister
  | close

def step : Action → Session
  | .receive incoming => session.receive incoming
  | .dispatch outcome => session.dispatch outcome
  | .begin method params roots cancelled stderr =>
      session.begin method params roots cancelled stderr
  | .advanceCall number wake outcome => session.advanceCall number wake outcome
  | .respond input => session.respond input
  | .advanceRespond number outcome => session.advanceRespond number outcome
  | .updateRoots roots => { session with roots }
  | .notify message outcome => session.write message none outcome
  | .unregister => { session with registered := false }
  | .close =>
      if session.calls.all Call.hasReturned then
        { session with registered := false, closing := true }
      else session

/-- The session while `open` waits for the response to its first call. -/
def opening (sessionKey : String) (roots : List String) (request : Value) : Session where
  sessionKey
  registered := true
  closing := false
  roots
  writer := ⟨[], []⟩
  serverRequests := .empty
  responseWaiters := .empty
  transportError := none
  dispatcher := .receiving
  nextId := 2
  calls := [⟨1, request, .checking, none⟩]
  responds := []
  received := []
  accepted := []

end Session

end Brunomnia.McpStdio
