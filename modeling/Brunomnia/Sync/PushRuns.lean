import Brunomnia.Library.Runs
import Brunomnia.Sync.SharedFile

/-!
# Interleaved pushes

Several clients pull and push, each push in its two steps. The revision is compared in the
first step only, so a push can replace a file that another client has put in place
since. The updates are kept exactly along the interleavings in which no file comes between
the two steps of a push that succeeds.
-/

namespace Brunomnia.Sync

open Library

variable {Client Envelope : Type} {cipher : SyncCipher Client Envelope}

/-- No update is lost: the pushes replace what they started from, and the revisions of
the contents of the file increase (the newest comes first), so that none is used twice. -/
structure UpdatesKept (state : SyncState cipher.toSyncReader) : Prop where
  basesReplaced : ∀ push ∈ state.pushes, ∀ replaced, push.replaced = some replaced →
    replaced.revision = push.baseRevision
  increasing : state.contents.Pairwise fun newer older => older.revision < newer.revision
  revisionsUnique : ∀ payload ∈ state.contents, ∀ other ∈ state.contents,
    payload.revision = other.revision → payload = other

/-! ## What a push reads -/

theorem readCurrent_none {client : Client} {input : SyncPushInput} {current : Option SyncPayload}
    (read : readCurrent cipher client none input = .ok current) : current = none := by
  simpa [readCurrent] using read.symm

theorem readCurrent_some {client : Client} {input : SyncPushInput}
    {current : Option SyncPayload} {file : SealedFile cipher.toSyncReader}
    (read : readCurrent cipher client (some file.envelope) input = .ok current) :
    current = some file.payload := by
  unfold readCurrent at read
  dsimp only at read
  split at read
  · contradiction
  · split at read
    · contradiction
    · rcases map_eq_ok.mp read with ⟨opened, pulled, rfl⟩
      rw [file.opens client input.passphrase opened pulled]

theorem sealPayload_payload {client : Client} {input : SyncPushInput} {payload : SyncPayload}
    {file : SealedFile cipher.toSyncReader}
    (isSealed : sealPayload cipher client input payload = .ok file) : file.payload = payload := by
  unfold sealPayload at isSealed
  split at isSealed
  · split at isSealed
    · contradiction
    · split at isSealed
      · contradiction
      · split at isSealed
        · contradiction
        · rcases map_eq_ok.mp isSealed with ⟨_, _, rfl⟩
          rfl
  · rcases map_eq_ok.mp isSealed with ⟨_, _, rfl⟩
    rfl

theorem checkPush_eq_ok {client : Client} {now : String} {input : SyncPushInput}
    (unforced : input.force = false) {current : Option (SealedFile cipher.toSyncReader)}
    {file : SealedFile cipher.toSyncReader}
    (checked : checkPush cipher client now (current.map SealedFile.envelope) input = .ok file) :
    (∀ remote ∈ current, remote.payload.revision = input.baseRevision) ∧
      file.payload.revision = nextRevision (current.map SealedFile.payload) := by
  unfold checkPush at checked
  split at checked
  · contradiction
  case h_2 read readEq =>
    have readPayload : read = current.map SealedFile.payload := by
      cases current with
      | none => exact readCurrent_none readEq
      | some remote => exact readCurrent_some readEq
    split at checked
    · contradiction
    case h_2 noConflict =>
      constructor
      · rintro remote rfl
        simpa [readPayload, unforced] using noConflict
      · rw [sealPayload_payload checked, readPayload]

theorem nextRevision_pos (current : Option SyncPayload) : 1 ≤ nextRevision current := by
  cases current with
  | none => exact Nat.le_refl 1
  | some remote =>
      simp [nextRevision, maxRevision]

/-! ## What is known of pending pushes -/

/-- A pending push against the contents of the file: the `older` ones are those it has
seen, `newer` ones came since. -/
structure PendingAgainst (push : PendingPush cipher.toSyncReader)
    (newer older : List SyncPayload) : Prop where
  counted : older.length = push.contentsRead
  base : ∀ remote ∈ older.head?, remote.revision = push.baseRevision
  next : push.file.payload.revision = nextRevision older.head?
  newerPos : older = [] → ∀ payload ∈ newer, 1 ≤ payload.revision

structure PushesSound (state : SyncState cipher.toSyncReader) : Prop where
  current : state.file.map SealedFile.payload = state.contents.head?
  pendingAgainst : ∀ client push, state.pending client = some push →
    ∃ newer older, state.contents = newer ++ older ∧ PendingAgainst push newer older

theorem sharedFile_sound (file : Option (SealedFile cipher.toSyncReader)) :
    PushesSound (sharedFile cipher file) where
  current := by cases file <;> rfl
  pendingAgainst client push isPending := by simp [sharedFile] at isPending

theorem sharedFile_updatesKept (file : Option (SealedFile cipher.toSyncReader)) :
    UpdatesKept (sharedFile cipher file) where
  basesReplaced := by simp [sharedFile]
  increasing := by cases file <;> simp [sharedFile]
  revisionsUnique := by cases file <;> simp [sharedFile]

/-- One more content of the file is one more that came since the push read it. -/
theorem PendingAgainst.cons {push : PendingPush cipher.toSyncReader}
    {newer older : List SyncPayload} (against : PendingAgainst push newer older)
    {payload : SyncPayload} (positive : 1 ≤ payload.revision) :
    PendingAgainst push (payload :: newer) older where
  counted := against.counted
  base := against.base
  next := against.next
  newerPos noneSeen other otherMem := by
    rcases List.mem_cons.mp otherMem with rfl | isNewer
    · exact positive
    · exact against.newerPos noneSeen other isNewer

theorem revisionsUnique_of_increasing {contents : List SyncPayload}
    (increasing : contents.Pairwise fun newer older => older.revision < newer.revision) :
    ∀ payload ∈ contents, ∀ other ∈ contents,
      payload.revision = other.revision → payload = other := by
  induction contents with
  | nil => simp
  | cons newest contents ih =>
      rw [List.pairwise_cons] at increasing
      intro payload payloadMem other otherMem sameRevision
      rcases List.mem_cons.mp payloadMem with rfl | payloadOlder <;>
        rcases List.mem_cons.mp otherMem with rfl | otherOlder
      · rfl
      · have older := increasing.1 other otherOlder
        omega
      · have older := increasing.1 payload payloadOlder
        omega
      · exact ih increasing.2 payload payloadOlder other otherOlder sameRevision

theorem replaced_of_unraced {push : PendingPush cipher.toSyncReader}
    {contents newer older : List SyncPayload} (contentsEq : contents = newer ++ older)
    (against : PendingAgainst push newer older)
    (unraced : push.contentsRead = contents.length)
    (room : ∀ payload ∈ contents.head?, payload.revision < maxRevision) :
    ∀ current ∈ contents.head?, current.revision = push.baseRevision ∧
      current.revision < push.file.payload.revision := by
  have noneNewer : newer = [] := by
    have counted := against.counted
    rw [unraced, contentsEq, List.length_append] at counted
    exact List.length_eq_zero_iff.mp (by omega)
  rw [noneNewer, List.nil_append] at contentsEq
  rw [contentsEq] at room ⊢
  intro current isCurrent
  refine ⟨against.base current isCurrent, ?_⟩
  have next := against.next
  have below := room current isCurrent
  rw [Option.mem_def] at isCurrent
  rw [isCurrent, nextRevision] at next
  omega

/-- Where the file that a push replaces has its base revision and a smaller one than it
writes, nothing came in between. -/
theorem unraced_of_replaced {push : PendingPush cipher.toSyncReader}
    {contents newer older : List SyncPayload} (contentsEq : contents = newer ++ older)
    (against : PendingAgainst push newer older)
    (increasing : contents.Pairwise fun newer older => older.revision < newer.revision)
    (replaced : ∀ current ∈ contents.head?, current.revision = push.baseRevision ∧
      current.revision < push.file.payload.revision) :
    push.contentsRead = contents.length ∧
      ∀ payload ∈ contents.head?, payload.revision < maxRevision := by
  have next := against.next
  cases newer with
  | nil =>
      rw [List.nil_append] at contentsEq
      subst contentsEq
      refine ⟨against.counted.symm, ?_⟩
      intro current isCurrent
      have smaller := (replaced current isCurrent).2
      rw [Option.mem_def] at isCurrent
      rw [isCurrent, nextRevision] at next
      omega
  | cons newest newer =>
      exfalso
      rw [contentsEq] at replaced increasing
      rcases replaced newest (by simp) with ⟨isBase, smaller⟩
      cases older with
      | nil =>
          have positive := against.newerPos rfl newest (by simp)
          rw [next] at smaller
          simp only [List.head?_nil, nextRevision] at smaller
          omega
      | cons seen older =>
          have seenBase := against.base seen (by simp)
          rw [List.cons_append, List.pairwise_cons] at increasing
          have seenOlder := increasing.1 seen (by simp)
          omega

section Steps

variable [DecidableEq Client] {state : SyncState cipher.toSyncReader}

theorem pullStep_cases (state : SyncState cipher.toSyncReader) (client : Client)
    (passphrase : String) :
    ∃ pulled, pullStep cipher state client passphrase = { state with pulled } := by
  unfold pullStep
  split
  · exact ⟨state.pulled, rfl⟩
  · split
    · exact ⟨state.pulled, rfl⟩
    · exact ⟨_, rfl⟩

theorem pullStep_sound (sound : PushesSound state) (client : Client) (passphrase : String) :
    PushesSound (pullStep cipher state client passphrase) := by
  rcases pullStep_cases state client passphrase with ⟨pulled, stepEq⟩
  rw [stepEq]
  exact ⟨sound.current, sound.pendingAgainst⟩

theorem checkStep_sound (sound : PushesSound state) (client : Client) (now : String)
    (push : UnforcedPush) : PushesSound (checkStep cipher state client now push.input) := by
  unfold checkStep
  split
  · exact sound
  · split
    · exact sound
    case h_2 file checked =>
      have facts := checkPush_eq_ok push.unforced checked
      rw [sound.current] at facts
      refine ⟨sound.current, ?_⟩
      intro other pending isPending
      dsimp only at isPending
      by_cases same : other = client
      · subst same
        rw [Function.update_self, Option.some.injEq] at isPending
        subst isPending
        refine ⟨[], state.contents, rfl, rfl, ?_, facts.2, by simp⟩
        intro remote remoteEq
        rw [← sound.current, Option.mem_def, Option.map_eq_some_iff] at remoteEq
        rcases remoteEq with ⟨current, currentEq, rfl⟩
        exact facts.1 current currentEq
      · rw [Function.update_of_ne same] at isPending
        exact sound.pendingAgainst other pending isPending

theorem giveUpStep_sound (sound : PushesSound state) (client : Client) :
    PushesSound (giveUpStep cipher state client) := by
  refine ⟨sound.current, ?_⟩
  intro other pending isPending
  by_cases same : other = client
  · subst same
    simp [giveUpStep] at isPending
  · unfold giveUpStep at isPending
    dsimp only at isPending
    rw [Function.update_of_ne same] at isPending
    exact sound.pendingAgainst other pending isPending

theorem replaceStep_sound (sound : PushesSound state) (client : Client) :
    PushesSound (replaceStep cipher state client) := by
  unfold replaceStep
  split
  · exact sound
  case h_2 push pushEq =>
    have positive : 1 ≤ push.file.payload.revision := by
      rcases sound.pendingAgainst client push pushEq with ⟨_, _, _, against⟩
      rw [against.next]
      exact nextRevision_pos _
    refine ⟨rfl, ?_⟩
    intro other pending isPending
    dsimp only at isPending
    by_cases same : other = client
    · subst same
      simp at isPending
    · rw [Function.update_of_ne same] at isPending
      rcases sound.pendingAgainst other pending isPending with
        ⟨newer, older, contentsEq, against⟩
      refine ⟨push.file.payload :: newer, older, ?_, against.cons positive⟩
      rw [contentsEq]
      rfl

theorem runSyncAction_sound (state : SyncState cipher.toSyncReader) (action : SyncAction Client)
    (sound : PushesSound state) : PushesSound (runSyncAction cipher state action) := by
  cases action with
  | pull client passphrase => exact pullStep_sound sound client passphrase
  | check client now push => exact checkStep_sound sound client now push
  | replace client => exact replaceStep_sound sound client
  | giveUp client => exact giveUpStep_sound sound client

/-! ## Replacing the file -/

/-- The steps that keep the updates: a push replaces the file only if nothing has replaced
it since the push read it, and the revision in it is not the last one there is. -/
def SyncActionAllowed (state : SyncState cipher.toSyncReader) : SyncAction Client → Prop
  | .replace client => ∀ push, state.pending client = some push →
      push.contentsRead = state.contents.length ∧
        ∀ payload ∈ state.contents.head?, payload.revision < maxRevision
  | _ => True

theorem replaceStep_kept_iff (sound : PushesSound state) (kept : UpdatesKept state)
    (client : Client) :
    UpdatesKept (replaceStep cipher state client) ↔
      SyncActionAllowed state (.replace client) := by
  unfold replaceStep SyncActionAllowed
  split
  case h_1 noPush => simp [noPush, kept]
  case h_2 push pushEq =>
    rcases sound.pendingAgainst client push pushEq with ⟨newer, older, contentsEq, against⟩
    simp only [pushEq, Option.some.injEq, forall_eq']
    constructor
    · intro keptAfter
      apply unraced_of_replaced contentsEq against kept.increasing
      intro current isCurrent
      constructor
      · apply keptAfter.basesReplaced _ List.mem_cons_self
        exact sound.current.trans isCurrent
      · apply (List.pairwise_cons.mp keptAfter.increasing).1
        exact List.mem_of_head? isCurrent
    · intro allowed
      have replaced := replaced_of_unraced contentsEq against allowed.1 allowed.2
      have increasing : (push.file.payload :: state.contents).Pairwise
          fun newer older => older.revision < newer.revision := by
        rw [List.pairwise_cons]
        refine ⟨?_, kept.increasing⟩
        have older := kept.increasing
        cases contentsCases : state.contents with
        | nil => simp
        | cons current contents =>
            rw [contentsCases] at replaced older
            have smaller := (replaced current (by simp)).2
            intro payload payloadMem
            rcases List.mem_cons.mp payloadMem with rfl | isOlder
            · exact smaller
            · exact ((List.pairwise_cons.mp older).1 payload isOlder).trans smaller
      refine ⟨?_, increasing, revisionsUnique_of_increasing increasing⟩
      intro other otherMem payload replacedEq
      rcases List.mem_cons.mp otherMem with rfl | earlier
      · exact (replaced payload (sound.current.symm.trans replacedEq)).1
      · exact kept.basesReplaced other earlier payload replacedEq

theorem checkStep_kept (kept : UpdatesKept state) (client : Client) (now : String)
    (input : SyncPushInput) : UpdatesKept (checkStep cipher state client now input) := by
  unfold checkStep
  split
  · exact kept
  · split
    · exact kept
    · exact ⟨kept.basesReplaced, kept.increasing, kept.revisionsUnique⟩

theorem runSyncAction_kept_iff (state : SyncState cipher.toSyncReader)
    (action : SyncAction Client) (sound : PushesSound state) (kept : UpdatesKept state) :
    UpdatesKept (runSyncAction cipher state action) ↔ SyncActionAllowed state action := by
  cases action with
  | pull client passphrase =>
      refine iff_of_true ?_ trivial
      rcases pullStep_cases state client passphrase with ⟨pulled, stepEq⟩
      rw [runSyncAction, stepEq]
      exact ⟨kept.basesReplaced, kept.increasing, kept.revisionsUnique⟩
  | check client now push => exact iff_of_true (checkStep_kept kept _ _ _) trivial
  | replace client => exact replaceStep_kept_iff sound kept client
  | giveUp client =>
      exact iff_of_true ⟨kept.basesReplaced, kept.increasing, kept.revisionsUnique⟩ trivial

end Steps

/-- However the pulls and pushes of the clients interleave, the updates are kept exactly
as long as no file is replaced between the two steps of a push that then replaces it. -/
theorem updatesKept_iff_unraced [DecidableEq Client] (cipher : SyncCipher Client Envelope)
    (file : Option (SealedFile cipher.toSyncReader)) (actions : List (SyncAction Client)) :
    EveryState (runSyncAction cipher) (sharedFile cipher file) actions UpdatesKept ↔
      EveryStep (runSyncAction cipher) (sharedFile cipher file) actions SyncActionAllowed :=
  everyState_iff_everyStep_of_invariant actions PushesSound
    ⟨sharedFile_sound file, sharedFile_updatesKept file⟩
    (fun state action sound _ => runSyncAction_sound state action sound)
    runSyncAction_kept_iff

/-! ## Two clients at once -/

/-- Encryption without ciphers: an envelope is opened by its passphrase or by its
recipients. Clients are named by their recipient ids. -/
def idealCipher : SyncCipher String ((String ⊕ List SyncRecipient) × SyncPayload) where
  syncStatus envelope := .ok (if envelope.1.isLeft then .passphrase else .recipients)
  syncPull client envelope passphrase :=
    match envelope.1 with
    | .inl chosen =>
        if passphrase = chosen then .ok envelope.2
        else .error "The passphrase is incorrect or the encrypted file was modified."
    | .inr recipients =>
        if client ∈ recipients.map SyncRecipient.id then .ok envelope.2
        else .error "This device is not an active recipient of the encrypted sync file."
  encrypt payload passphrase :=
    if passphrase.length < 12 then
      .error "Use an encryption passphrase with at least 12 bytes."
    else
      .ok ⟨(.inl passphrase, payload), by
        intro client given opened
        dsimp only
        split <;> simp +contextual [eq_comm]⟩
  encryptForRecipients payload recipients :=
    .ok ⟨(.inr recipients, payload), by
      intro client given opened
      dsimp only
      split <;> simp +contextual [eq_comm]⟩
  syncIdentity client := .ok ⟨client, client, client⟩
  validateSyncRecipient recipient := .ok recipient

def firstPush (actor : String) : UnforcedPush where
  input :=
    { passphrase := "shared passphrase for testing"
      actor
      baseRevision := 0
      force := false
      workspace := .obj [("name", .str actor)]
      repository := .null
      recipientEncryption := false
      recipients := [] }
  unforced := rfl

/-- Two clients find no file. Both push a first revision, and the second replaces the first. -/
theorem first_push_lost :
    ¬UpdatesKept ([SyncAction.check "Avery" "now" (firstPush "Avery"),
      .check "Blake" "now" (firstPush "Blake"), .replace "Avery", .replace "Blake"].foldl
        (runSyncAction idealCipher) (sharedFile idealCipher none)) := by
  intro kept
  have increasing := kept.increasing
  revert increasing
  decide

end Brunomnia.Sync
