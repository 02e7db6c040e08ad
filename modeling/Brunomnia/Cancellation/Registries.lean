import Brunomnia.Codegen.Text
import Brunomnia.Library.Runs
import Brunomnia.Multipart.Encoder

/-!
# Registries of cancellations

A call of the HTTP client or of the MCP STDIO client registers a channel on which it can be
cancelled. A cancellation that comes before its call is pending until the call registers. There is
room for a number of pending cancellations; one that finds no room empties the set. The registries
are behind a lock, so their operations are the steps of a system, in any order.
-/

namespace Brunomnia.Cancellation

open Codegen (Text)
open Library
open Multipart (utf8)

variable {Id : Type} [DecidableEq Id]

/-- Channels are numbered in the order in which they are made. -/
structure Registry (Id : Type) where
  active : Id → Option ℕ
  pending : Finset Id

def Registry.empty : Registry Id := ⟨fun _ => none, ∅⟩

/-- `MAX_CANCELLATION_IDS` -/
def maxCancellationIds : ℕ := 1024

namespace Registry

variable (registry : Registry Id)

/-- What a cancellation does whose call is not active. -/
def remember (id : Id) : Registry Id :=
  { registry with
    pending := insert id
      (if maxCancellationIds ≤ registry.pending.card then ∅ else registry.pending) }

/-- A call whose cancellation is pending gets no channel. -/
def register (id : Id) (channel : ℕ) : Registry Id × Option ℕ :=
  if id ∈ registry.pending then ({ registry with pending := registry.pending.erase id }, none)
  else ({ registry with active := Function.update registry.active id (some channel) }, some channel)

def finish (id : Id) : Registry Id :=
  ⟨Function.update registry.active id none, registry.pending.erase id⟩

end Registry

/-- `HttpCancellationState::cancel`, with the channel that gets the signal. The sender of a channel
is used once. -/
def httpCancel (registry : Registry Text) (id : Text) : Registry Text × Option ℕ :=
  match registry.active id with
  | some channel =>
      ({ registry with active := Function.update registry.active id none }, some channel)
  | none => (registry.remember id, none)

def maxCancellationIdBytes : ℕ := 512

def isStdioId (id : Text) : Bool :=
  id ≠ [] ∧ '\x00' ∉ id ∧ (utf8 id).length ≤ maxCancellationIdBytes

/-- `McpStdioCancellationState::cancel`, with the channel whose flag is set. -/
def stdioCancel (registry : Registry Text) (id : Text) : Registry Text × Option ℕ :=
  if isStdioId id then
    match registry.active id with
    | some channel => (registry, some channel)
    | none => (registry.remember id, none)
  else (registry, none)

/-! ## The scheme of both -/

/-- A way to cancel calls: it signals active calls, and remembers the others. -/
structure Canceller (Id : Type) [DecidableEq Id] where
  /-- The ids that are not ignored. -/
  takes : Id → Prop
  /-- The ids under which calls register. -/
  admits : Id → Prop
  cancel : Registry Id → Id → Registry Id × Option ℕ
  takes_of_admits : ∀ id, admits id → takes id
  cancel_ignored : ∀ registry id, ¬ takes id → cancel registry id = (registry, none)
  cancel_idle : ∀ registry id, takes id → registry.active id = none →
    cancel registry id = (registry.remember id, none)
  cancel_active : ∀ registry id channel, takes id → registry.active id = some channel →
    (cancel registry id).2 = some channel ∧ (cancel registry id).1.pending = registry.pending
  cancel_others : ∀ registry id other, other ≠ id →
    (cancel registry id).1.active other = registry.active other
  cancel_self : ∀ registry id channel, (cancel registry id).1.active id = some channel →
    registry.active id = some channel

def http : Canceller Text where
  takes _ := True
  admits id := id ≠ []
  cancel := httpCancel
  takes_of_admits _ _ := trivial
  cancel_ignored _ _ ignored := absurd trivial ignored
  cancel_idle registry id _ idle := by rw [httpCancel, idle]
  cancel_active registry id channel _ isActive := by
    rw [httpCancel, isActive]
    exact ⟨rfl, rfl⟩
  cancel_others registry id other different := by
    unfold httpCancel
    split
    case h_1 => exact Function.update_of_ne different _ _
    case h_2 => rfl
  cancel_self registry id channel := by
    unfold httpCancel
    split
    case h_1 => simp
    case h_2 => exact fun same => same

def stdio : Canceller Text where
  takes id := isStdioId id
  admits id := isStdioId id
  cancel := stdioCancel
  takes_of_admits _ admitted := admitted
  cancel_ignored registry id ignored := if_neg ignored
  cancel_idle registry id taken idle := by rw [stdioCancel, if_pos taken, idle]
  cancel_active registry id channel taken isActive := by
    rw [stdioCancel, if_pos taken, isActive]
    exact ⟨rfl, rfl⟩
  cancel_others registry id other different := by
    unfold stdioCancel
    split
    case isTrue => split <;> rfl
    case isFalse => rfl
  cancel_self registry id channel := by
    unfold stdioCancel
    split
    case isTrue => split <;> exact fun same => same
    case isFalse => exact fun same => same

/-! ## Calls -/

/-- A call that runs holds a channel; one that has ended was signalled or not. -/
inductive Call where
  | waiting
  | refused
  | running (channel : ℕ)
  | ended (signalled : Bool)

structure System (Id : Type) where
  registry : Registry Id
  channels : ℕ
  raised : Finset ℕ
  calls : Id → Call

def System.initial : System Id := ⟨Registry.empty, 0, ∅, fun _ => .waiting⟩

inductive Action (Id : Type) where
  | cancel (id : Id)
  | register (id : Id)
  | finish (id : Id)

/-- Calls have different ids, so that every id registers once. It finishes once, if it runs. -/
def Enabled (canceller : Canceller Id) (system : System Id) : Action Id → Prop
  | .cancel _ => True
  | .register id => canceller.admits id ∧ system.calls id = .waiting
  | .finish id => ∃ channel, system.calls id = .running channel

def registerCall (system : System Id) (id : Id) : System Id :=
  match system.registry.register id system.channels with
  | (registry, none) =>
      { system with registry := registry, calls := Function.update system.calls id .refused }
  | (registry, some channel) =>
      { system with
        registry := registry
        channels := system.channels + 1
        calls := Function.update system.calls id (.running channel) }

def finishCall (system : System Id) (id : Id) : System Id :=
  match system.calls id with
  | .running channel =>
      { system with
        registry := system.registry.finish id
        calls := Function.update system.calls id (.ended (channel ∈ system.raised)) }
  | _ => system

def step (canceller : Canceller Id) (system : System Id) : Action Id → System Id
  | .cancel id =>
      let (registry, signal) := canceller.cancel system.registry id
      { system with registry := registry, raised := system.raised ∪ signal.toFinset }
  | .register id => registerCall system id
  | .finish id => finishCall system id

/-- The runs of any number of calls and cancellations. -/
def IsRun (canceller : Canceller Id) (actions : List (Action Id)) : Prop :=
  EveryStep (step canceller) System.initial actions (Enabled canceller)

end Brunomnia.Cancellation
