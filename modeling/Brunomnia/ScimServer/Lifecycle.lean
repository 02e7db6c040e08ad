import Brunomnia.Library.Runs

/-!
# Lifecycle of the SCIM server

The control plane registers one running server. Stopping it, and synchronizing another workspace,
take it from the registry and tell its task to shut down; the task cleans up some time later. It
then recognizes its own entry by the workspace only, and so it may unregister a newer server and
drop the handle by which that one could be stopped, which shuts it down as well.
-/

namespace Brunomnia.ScimServer

/-! ## State -/

structure ScimConfig where
  enabled : Bool
  bindHost : String
  port : ℕ
  tokenId : String
  deriving DecidableEq

structure ControlPlaneSyncInput where
  workspaceId : String
  scim : ScimConfig
  deriving DecidableEq

structure StoredScimToken where
  tokenId : String
  expiresAt : String
  deriving DecidableEq

structure Address where
  isIpv6 : Bool
  ip : String
  port : ℕ
  deriving DecidableEq

/-- A registered server. It owns the sender by which its task is told to shut down. -/
structure RunningScimServer where
  shutdown : ℕ
  baseUrl : String
  workspaceId : String
  deriving DecidableEq

structure IdentityRuntime where
  workspaceId : String
  governance : Option ScimConfig
  server : Option RunningScimServer
  deriving DecidableEq

/-- What the receiver of a task sees: nothing yet, a message, or that the sender is gone. It goes
on waiting in the first case only. -/
inductive Shutdown where
  | waiting
  | sent
  | dropped
  deriving DecidableEq

/-- A spawned task that serves until it is shut down, and then cleans up. -/
structure ServingTask where
  workspaceId : String
  shutdown : Shutdown
  cleaned : Bool
  deriving DecidableEq

structure ControlPlane where
  runtime : IdentityRuntime
  tasks : List ServingTask
  deriving DecidableEq

def ControlPlane.initial : ControlPlane where
  runtime := ⟨"", none, none⟩
  tasks := []

structure ScimServerStatus where
  running : Bool
  baseUrl : String
  workspaceId : String
  deriving DecidableEq

/-! ## Operations -/

/-- `char::is_control` -/
def isControl (letter : Char) : Bool :=
  letter.toNat < 32 ∨ (127 ≤ letter.toNat ∧ letter.toNat < 160)

def validateWorkspaceId (workspaceId : String) : Except String Unit :=
  if workspaceId.isEmpty ∨ 500 < workspaceId.utf8ByteSize ∨ workspaceId.toList.any isControl then
    .error "Workspace IDs must contain 1 to 500 printable characters."
  else .ok ()

namespace ControlPlane

variable (plane : ControlPlane)

/-- What becomes of a sender: its task sees it if it has waited. -/
def tell (shutdown : ℕ) (signal : Shutdown) : ControlPlane :=
  { plane with
    tasks := plane.tasks.modify shutdown fun task =>
      if task.shutdown = .waiting then { task with shutdown := signal } else task }

/-- `runtime.server.take()`, and the message to its task. -/
def takeServer : ControlPlane :=
  match plane.runtime.server with
  | some server =>
      { plane with runtime := { plane.runtime with server := none } }.tell server.shutdown .sent
  | none => plane

end ControlPlane

def sync (input : ControlPlaneSyncInput) (plane : ControlPlane) :
    Except String Unit × ControlPlane :=
  match validateWorkspaceId input.workspaceId with
  | .error message => (.error message, plane)
  | .ok () =>
      let plane := if plane.runtime.workspaceId ≠ "" ∧
          plane.runtime.workspaceId ≠ input.workspaceId then plane.takeServer else plane
      (.ok (),
        { plane with
          runtime :=
            { plane.runtime with
              workspaceId := input.workspaceId
              governance := some input.scim } })

/-- What a start finds outside: the stored token, the time, and an address for the listener. -/
structure Outside where
  storedScimToken : String → Except String (Option StoredScimToken)
  parseTime : String → Option ℤ
  now : ℤ
  bind : String → ℕ → Except String Address

def baseUrl (address : Address) : String :=
  if address.isIpv6 then "http://[" ++ address.ip ++ "]:" ++ toString address.port ++ "/scim/v2"
  else "http://" ++ address.ip ++ ":" ++ toString address.port ++ "/scim/v2"

/-- The address of a new server, as far as the configuration and the token allow one. -/
def bindScimServer (outside : Outside) (workspaceId : String) (scim : ScimConfig) :
    Except String Address := do
  let token ← match ← outside.storedScimToken workspaceId with
    | some token => .ok token
    | none => .error "Generate a SCIM connector token first."
  if token.tokenId ≠ scim.tokenId then
    .error ("The OS-protected SCIM token does not match this workspace configuration. " ++
      "Refresh the token.")
  else if token.expiresAt ≠ "" ∧ ((outside.parseTime token.expiresAt).map fun expiry =>
      decide (expiry ≤ outside.now)).getD true then
    .error "The SCIM connector token has expired."
  else if scim.bindHost ∉ ["127.0.0.1", "0.0.0.0", "::1", "::"] then
    .error "SCIM bind hosts must be loopback or an explicit all-interface address."
  else
    match outside.bind scim.bindHost scim.port with
    | .error message => .error ("Unable to bind the SCIM connector: " ++ message)
    | .ok address => .ok address

def startScimServer (outside : Outside) (plane : ControlPlane) :
    Except String ScimServerStatus × ControlPlane :=
  let workspaceId := plane.runtime.workspaceId
  match validateWorkspaceId workspaceId with
  | .error message => (.error message, plane)
  | .ok () =>
      match plane.runtime.governance with
      | none => (.error "Synchronize governance before starting SCIM.", plane)
      | some scim =>
          if scim.enabled = false then
            (.error "Enable SCIM before starting the connector.", plane)
          else
            match plane.runtime.server with
            | some server => (.ok ⟨true, server.baseUrl, server.workspaceId⟩, plane)
            | none =>
                match bindScimServer outside workspaceId scim with
                | .error message => (.error message, plane)
                | .ok address =>
                    let server : RunningScimServer :=
                      ⟨plane.tasks.length, baseUrl address, workspaceId⟩
                    (.ok ⟨true, baseUrl address, workspaceId⟩,
                      { runtime := { plane.runtime with server := some server }
                        tasks := plane.tasks ++ [⟨workspaceId, .waiting, false⟩] })

def stopScimServer (plane : ControlPlane) : ScimServerStatus × ControlPlane :=
  match plane.runtime.server with
  | some server => (⟨false, "", server.workspaceId⟩, plane.takeServer)
  | none => (⟨false, "", plane.runtime.workspaceId⟩, plane)

/-- A task has been shut down and has not cleaned up. -/
def ServingTask.isDue (task : ServingTask) : Bool :=
  task.shutdown ≠ .waiting ∧ task.cleaned = false

/-- The end of a task. It cannot come before the task is shut down, and comes once. -/
def cleanup (index : ℕ) (plane : ControlPlane) : ControlPlane :=
  match plane.tasks[index]? with
  | none => plane
  | some task =>
      if task.isDue then
        let plane : ControlPlane :=
          { plane with tasks := plane.tasks.set index { task with cleaned := true } }
        match plane.runtime.server with
        | none => plane
        | some server =>
            if server.workspaceId = task.workspaceId then
              { plane with runtime := { plane.runtime with server := none } }.tell
                server.shutdown .dropped
            else plane
      else plane

/-- The steps that the operations take under the lock. A request may change the configuration. -/
inductive Action where
  | sync (input : ControlPlaneSyncInput)
  | start (outside : Outside)
  | stop
  | request (scim : ScimConfig)
  | cleanup (index : ℕ)

def step (plane : ControlPlane) (action : Action) : ControlPlane :=
  match action with
  | .sync input => (sync input plane).2
  | .start outside => (startScimServer outside plane).2
  | .stop => (stopScimServer plane).2
  | .request scim =>
      { plane with
        runtime :=
          { plane.runtime with governance := plane.runtime.governance.map fun _ => scim } }
  | .cleanup index => cleanup index plane

end Brunomnia.ScimServer
