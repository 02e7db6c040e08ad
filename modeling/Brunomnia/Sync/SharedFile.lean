import Brunomnia.Json
import Brunomnia.Strings

/-!
# The shared encrypted file

Clients share a revision of a workspace through one encrypted file. A client pulls by
reading the file. It pushes in two steps: it reads the file and compares the revision in
it with the one it started from, and then puts a new file in its place. The ciphers are
parameters; of an envelope that was encrypted the code relies on this: who can open it
gets the payload that was put in.
-/

namespace Brunomnia.Sync

structure SyncRecipient where
  id : String
  label : String
  publicKeyBase64 : String
  deriving DecidableEq

structure SyncPayload where
  revision : ℕ
  actor : String
  savedAt : String
  workspace : Json
  repository : Json
  deriving DecidableEq

structure SyncPushInput where
  passphrase : String
  actor : String
  baseRevision : ℕ
  force : Bool
  workspace : Json
  repository : Json
  recipientEncryption : Bool
  recipients : List SyncRecipient

inductive EncryptionMode where
  | passphrase
  | recipients
  deriving DecidableEq

def maxSyncRecipients : ℕ := 100

/-- `u64::MAX`, at which `saturating_add` stays. -/
def maxRevision : ℕ := 2 ^ 64 - 1

/-- Reading an envelope: its mode from `sync_status`, its payload from `sync_pull`. -/
structure SyncReader (Client Envelope : Type) where
  syncStatus : Envelope → Except String EncryptionMode
  syncPull : Client → Envelope → String → Except String SyncPayload

/-- Whoever opens an envelope gets a certain payload. -/
def SyncReader.Opens {Client Envelope : Type} (reader : SyncReader Client Envelope)
    (envelope : Envelope) (payload : SyncPayload) : Prop :=
  ∀ client passphrase opened,
    reader.syncPull client envelope passphrase = .ok opened → opened = payload

/-- Writing envelopes. Who a client is and which recipients there can be depends on
keys that its device keeps. -/
structure SyncCipher (Client Envelope : Type) extends SyncReader Client Envelope where
  encrypt : (payload : SyncPayload) → String →
    Except String {envelope // toSyncReader.Opens envelope payload}
  encryptForRecipients : (payload : SyncPayload) → List SyncRecipient →
    Except String {envelope // toSyncReader.Opens envelope payload}
  syncIdentity : Client → Except String SyncRecipient
  validateSyncRecipient : SyncRecipient → Except String SyncRecipient

/-- A file on disk with the payload that is encrypted in it. -/
structure SealedFile {Client Envelope : Type} (reader : SyncReader Client Envelope) where
  envelope : Envelope
  payload : SyncPayload
  opens : reader.Opens envelope payload

section Push

variable {Client Envelope : Type} (cipher : SyncCipher Client Envelope)

def validateSyncRecipients (recipients : List SyncRecipient) :
    Except String (List SyncRecipient) :=
  if recipients = [] ∨ maxSyncRecipients < recipients.length then
    .error "Recipient encryption requires 1 to 100 recipients."
  else
    match recipients.mapM cipher.validateSyncRecipient with
    | .error message => .error message
    | .ok validated =>
        if (validated.map SyncRecipient.id).Nodup then
          .ok (validated.mergeSort fun left right => left.id ≤ right.id)
        else .error "Encrypted-sync recipient public keys must be unique."

/-- The payload in the file when the push looks at it. -/
def readCurrent (client : Client) (file : Option Envelope) (input : SyncPushInput) :
    Except String (Option SyncPayload) :=
  match file with
  | none => .ok none
  | some envelope =>
      match cipher.syncStatus envelope with
      | .error message => .error message
      | .ok mode =>
          if mode = .recipients ∧ input.recipientEncryption = false then
            .error
              "Recipient-encrypted sync files cannot be downgraded to a shared passphrase."
          else (cipher.syncPull client envelope input.passphrase).map some

def nextRevision : Option SyncPayload → ℕ
  | none => 1
  | some remote => min (remote.revision + 1) maxRevision

def sealPayload (client : Client) (input : SyncPushInput) (payload : SyncPayload) :
    Except String (SealedFile cipher.toSyncReader) :=
  if input.recipientEncryption then
    match validateSyncRecipients cipher input.recipients with
    | .error message => .error message
    | .ok recipients =>
        match cipher.syncIdentity client with
        | .error message => .error message
        | .ok identity =>
            if identity.id ∉ recipients.map SyncRecipient.id then
              .error "Keep this device in the recipient list before rotating the sync key."
            else
              (cipher.encryptForRecipients payload recipients).map fun ⟨envelope, opens⟩ =>
                ⟨envelope, payload, opens⟩
  else
    (cipher.encrypt payload input.passphrase).map fun ⟨envelope, opens⟩ =>
      ⟨envelope, payload, opens⟩

/-- The first step of `sync_push`: the file that is to replace the one it has read. -/
def checkPush (client : Client) (now : String) (file : Option Envelope)
    (input : SyncPushInput) : Except String (SealedFile cipher.toSyncReader) :=
  match readCurrent cipher client file input with
  | .error message => .error message
  | .ok current =>
      match current.filter fun remote =>
          !input.force && remote.revision != input.baseRevision with
      | some remote =>
          .error ("Encrypted sync conflict: remote revision " ++ toString remote.revision ++
            " does not match local base " ++ toString input.baseRevision ++
            ". Pull first or explicitly force a new revision.")
      | none =>
          sealPayload cipher client input
            { revision := nextRevision current
              actor := trim input.actor
              savedAt := now
              workspace := input.workspace
              repository := input.repository }

end Push

/-! ## The clients and the file -/

/-- A push without force. -/
structure UnforcedPush where
  input : SyncPushInput
  unforced : input.force = false

/-- A push between its two steps. `contentsRead` counts the contents the file had had
when the push read it. -/
structure PendingPush {Client Envelope : Type} (reader : SyncReader Client Envelope) where
  file : SealedFile reader
  baseRevision : ℕ
  contentsRead : ℕ

/-- A push that has replaced the file, with the payload it replaced. -/
structure SuccessfulPush where
  baseRevision : ℕ
  replaced : Option SyncPayload
  payload : SyncPayload

/-- The file, what the clients are doing and, newest first, the contents of the file and
the pushes so far. -/
structure SyncState {Client Envelope : Type} (reader : SyncReader Client Envelope) where
  file : Option (SealedFile reader)
  pending : Client → Option (PendingPush reader)
  pulled : Client → Option SyncPayload
  contents : List SyncPayload
  pushes : List SuccessfulPush

inductive SyncAction (Client : Type) where
  | pull (client : Client) (passphrase : String)
  | check (client : Client) (now : String) (push : UnforcedPush)
  | replace (client : Client)
  | giveUp (client : Client)

section Steps

variable {Client Envelope : Type} [DecidableEq Client] (cipher : SyncCipher Client Envelope)

/-- The state in which clients find a file, or none. -/
def sharedFile (file : Option (SealedFile cipher.toSyncReader)) :
    SyncState cipher.toSyncReader where
  file := file
  pending := fun _ => none
  pulled := fun _ => none
  contents := (file.map SealedFile.payload).toList
  pushes := []

def pullStep (state : SyncState cipher.toSyncReader) (client : Client) (passphrase : String) :
    SyncState cipher.toSyncReader :=
  match state.file with
  | none => state
  | some file =>
      match cipher.syncPull client file.envelope passphrase with
      | .error _ => state
      | .ok payload => { state with pulled := Function.update state.pulled client (some payload) }

def checkStep (state : SyncState cipher.toSyncReader) (client : Client) (now : String)
    (input : SyncPushInput) : SyncState cipher.toSyncReader :=
  match state.pending client with
  | some _ => state
  | none =>
      match checkPush cipher client now (state.file.map SealedFile.envelope) input with
      | .error _ => state
      | .ok file =>
          { state with
            pending := Function.update state.pending client
              (some ⟨file, input.baseRevision, state.contents.length⟩) }

/-- The second step of `sync_push`: `write_private` renames the new file over the old one. -/
def replaceStep (state : SyncState cipher.toSyncReader) (client : Client) :
    SyncState cipher.toSyncReader :=
  match state.pending client with
  | none => state
  | some push =>
      { state with
        file := some push.file
        pending := Function.update state.pending client none
        contents := push.file.payload :: state.contents
        pushes := ⟨push.baseRevision, state.file.map SealedFile.payload, push.file.payload⟩ ::
          state.pushes }

/-- The new file cannot be written. -/
def giveUpStep (state : SyncState cipher.toSyncReader) (client : Client) :
    SyncState cipher.toSyncReader :=
  { state with pending := Function.update state.pending client none }

def runSyncAction (state : SyncState cipher.toSyncReader) :
    SyncAction Client → SyncState cipher.toSyncReader
  | .pull client passphrase => pullStep cipher state client passphrase
  | .check client now push => checkStep cipher state client now push.input
  | .replace client => replaceStep cipher state client
  | .giveUp client => giveUpStep cipher state client

end Steps

end Brunomnia.Sync
