import Brunomnia.Governance.Invitations
import Brunomnia.Library.Runs

/-!
# An organization over time

While members invite others and hand the organization over, pending invitations go to different
addresses of people who are not members, and one member owns the organization. Resending keeps
this as long as it does not meet what sending checks, and handing over as long as identifiers
are not shared.
-/

namespace Brunomnia.Governance

open Library

variable {lowerCase : String → String} {toISOString : ℤ → String}
  {state after : OrganizationGovernance}

/-! ## What is to be kept -/

def OrganizationInvitation.isPending (invitation : OrganizationInvitation) : Bool :=
  invitation.status = .pending

/-- Nobody who is an active member has this address. -/
def FreeAddress (lowerCase : String → String) (state : OrganizationGovernance) (email : String) :
    Prop :=
  ∀ member ∈ state.governance.members, member.active = true →
    normalizeEmail lowerCase member.email ≠ email

/-- Pending invitations go to different addresses, none of them that of an active member. -/
structure Invited (lowerCase : String → String) (state : OrganizationGovernance) : Prop where
  onceEach : ((state.invitations.filter (·.isPending)).map (·.email)).Nodup
  outsiders : ∀ invitation ∈ state.invitations, invitation.isPending = true →
    FreeAddress lowerCase state invitation.email

def GovernanceMember.isOwner (member : GovernanceMember) : Bool :=
  member.role = .owner

/-- One member is an owner: the active one that the organization names. -/
def Owned (state : OrganizationGovernance) : Prop :=
  ∃ owner, state.governance.members.filter (·.isOwner) = [owner] ∧ owner.active = true ∧
    owner.id = state.ownerId

/-- The log is within its bound. -/
def AuditBounded (state : OrganizationGovernance) : Prop :=
  state.governance.audit.length ≤ auditLimit state.governance

/-- The log lists events of the calls so far, those of later calls first, and then as many of the
events there were as there is room for. -/
def NewestFirst (toISOString : ℤ → String) (initial : OrganizationGovernance)
    (calls : List GovernanceCall) (state : OrganizationGovernance) : Prop :=
  ∃ events : List AuditEvent,
    (events.map AuditEvent.timestamp).Sublist
      ((calls.reverse.filterMap GovernanceCall.time).map toISOString) ∧
    state.governance.audit =
      (events ++ initial.governance.audit).take (auditLimit state.governance)

/-- Along a sequence of calls, everything is kept that is to be kept. -/
structure KeepsOrganization (lowerCase : String → String) (toISOString : ℤ → String)
    (initial : OrganizationGovernance) (calls : List GovernanceCall) : Prop where
  organized : EveryState (afterCall lowerCase toISOString) initial calls fun state =>
    Invited lowerCase state ∧ Owned state
  bounded : EveryState (afterCall lowerCase toISOString) initial calls AuditBounded
  newestFirst : ∀ n ≤ calls.length, NewestFirst toISOString initial (calls.take n)
    (stateAt (afterCall lowerCase toISOString) initial calls n)
  throws : ∀ n (inRange : n < calls.length) message,
    callResult lowerCase toISOString (stateAt (afterCall lowerCase toISOString) initial calls n)
      calls[n] = .error message →
    stateAt (afterCall lowerCase toISOString) initial calls (n + 1) =
      stateAt (afterCall lowerCase toISOString) initial calls n

/-! ## What calls may do -/

/-- The invitation that is resent. -/
structure Resends (state : OrganizationGovernance) (invitationId : String)
    (invitation : OrganizationInvitation) : Prop where
  permitted : hasOrganizationPermission state.governance .createInvitation = true
  found : state.invitations.find? (fun candidate => candidate.id = invitationId) = some invitation
  open_ : invitation.status = .pending ∨ invitation.status = .expired

/-- Resending meets what sending would check. -/
structure Resendable (lowerCase : String → String) (state : OrganizationGovernance)
    (invitationId : String) : Prop where
  onceEach : ((state.invitations.filter fun invitation =>
    invitation.isPending ∨ invitation.id = invitationId).map (·.email)).Nodup
  outsiders : ∀ invitation ∈ state.invitations, invitation.id = invitationId →
    FreeAddress lowerCase state invitation.email

/-- The current member hands the organization over to another one. -/
structure HandsOver (state : OrganizationGovernance) (memberId : String)
    (current target : GovernanceMember) : Prop where
  isCurrent : currentGovernanceMember state.governance = some current
  named : current.id = state.ownerId
  owner : current.role = .owner
  ssoDisabled : state.governance.sso.enabled = false
  noPending : ∀ invitation ∈ state.invitations, invitation.status ≠ .pending
  found : state.governance.members.find? (fun member => member.id = memberId ∧ member.active) =
    some target
  another : target.id ≠ current.id

/-- Only one member has the identifier. -/
def OneMember (state : OrganizationGovernance) (memberId : String) : Prop :=
  (state.governance.members.filter fun member => member.id = memberId).length = 1

/-- What a call must not meet. -/
def AllowedCall (lowerCase : String → String) (state : OrganizationGovernance) :
    GovernanceCall → Prop
  | .reinvite invitationId _ _ =>
      (∃ invitation, Resends state invitationId invitation) →
        Resendable lowerCase state invitationId
  | .transfer memberId _ _ =>
      (∃ current target, HandsOver state memberId current target) → OneMember state memberId
  | _ => True

/-! ## What calls do -/

section Audited

variable {actorId action detail now identifier : String}

@[simp]
theorem audited_invitations :
    (state.audited actorId action detail now identifier).invitations = state.invitations := by
  simp only [OrganizationGovernance.audited]

@[simp]
theorem audited_ownerId :
    (state.audited actorId action detail now identifier).ownerId = state.ownerId := by
  simp only [OrganizationGovernance.audited]

@[simp]
theorem audited_members : (state.audited actorId action detail now identifier).governance.members =
    state.governance.members := by
  simp only [OrganizationGovernance.audited, audit]

theorem invited_audited :
    Invited lowerCase (state.audited actorId action detail now identifier) ↔
      Invited lowerCase state :=
  ⟨fun invited => ⟨invited.onceEach, invited.outsiders⟩,
    fun invited => ⟨invited.onceEach, invited.outsiders⟩⟩

theorem owned_audited :
    Owned (state.audited actorId action detail now identifier) ↔ Owned state := Iff.rfl

end Audited

/-- A call leaves the log alone or puts one event in front, which bears its time. -/
structure LogsOnce (toISOString : ℤ → String) (call : GovernanceCall)
    (state after : OrganizationGovernance) : Prop where
  sameLimit : auditLimit after.governance = auditLimit state.governance
  logged : after.governance.audit = state.governance.audit ∨
    ∃ (event : AuditEvent) (now : ℤ), call.time = some now ∧ event.timestamp = toISOString now ∧
      after.governance.audit =
        (event :: state.governance.audit).take (auditLimit state.governance)

theorem LogsOnce.refl (call : GovernanceCall) : LogsOnce toISOString call state state :=
  ⟨rfl, .inl rfl⟩

theorem logsOnce_audited {call : GovernanceCall} {next : OrganizationGovernance} {now : ℤ}
    (sameAudit : next.governance.audit = state.governance.audit)
    (samePolicy : next.governance.policy = state.governance.policy)
    (time : call.time = some now) (actorId action detail identifier : String) :
    LogsOnce toISOString call state
      (next.audited actorId action detail (toISOString now) identifier) := by
  have sameLimit : auditLimit next.governance = auditLimit state.governance := by
    simp only [auditLimit, samePolicy]
  constructor
  · exact sameLimit
  · right
    refine ⟨⟨identifier, toISOString now, actorId, action, detail⟩, now, time, rfl, ?_⟩
    simp only [OrganizationGovernance.audited, audit, sameAudit, sameLimit]

section Create

variable {email : String} {role : GovernanceRole} {now : ℤ} {invitationId identifier : String}

/-- The state with an invitation for an address that is free and has no pending one. -/
theorem create_eq_ok {result : OrganizationGovernance × OrganizationInvitation}
    (created : createOrganizationInvitation lowerCase toISOString state email role now
      invitationId identifier = .ok result) :
    ∃ invitation detail, invitation.isPending = true ∧
      FreeAddress lowerCase state invitation.email ∧
      (∀ other ∈ state.invitations, other.isPending = true → other.email ≠ invitation.email) ∧
      result.1 = { state with invitations := state.invitations ++ [invitation] }.audited
        state.governance.currentMemberId "organization.invitation.create" detail (toISOString now)
        ("audit-" ++ identifier) := by
  simp only [createOrganizationInvitation] at created
  split at created
  case isTrue => cases created
  case isFalse =>
  split at created
  case isTrue => cases created
  case isFalse =>
  split at created
  case isTrue => cases created
  case isFalse isFree =>
  split at created
  case isTrue => cases created
  case isFalse noPending =>
  cases created
  simp only [List.any_eq_true, decide_eq_true_eq, not_exists, not_and] at isFree
  simp only [List.find?_isSome, decide_eq_true_eq, not_exists, not_and] at noPending
  refine ⟨_, _, ?_, ?_, ?_, rfl⟩
  · exact decide_eq_true rfl
  · intro member memberMem active same
    exact isFree member memberMem same active
  · intro other otherMem pending same
    exact noPending other otherMem same (of_decide_eq_true pending)

end Create

/-- The state with the invitations of one identifier resent. -/
def OrganizationGovernance.reinvited (state : OrganizationGovernance)
    (toISOString : ℤ → String) (invitationId : String) (now : ℤ) : OrganizationGovernance :=
  { state with
    invitations := state.invitations.map fun candidate =>
      if candidate.id = invitationId then candidate.resent toISOString now else candidate }

/-- The state with the invitations of one identifier revoked. -/
def OrganizationGovernance.withRevoked (state : OrganizationGovernance) (invitationId : String) :
    OrganizationGovernance :=
  { state with
    invitations := state.invitations.map fun candidate =>
      if candidate.id = invitationId then { candidate with status := .revoked } else candidate }

/-- The state with the organization in the hands of another member. -/
def OrganizationGovernance.handedOver (state : OrganizationGovernance)
    (targetId currentId : String) : OrganizationGovernance :=
  { state with
    governance := { state.governance with
      members := state.governance.members.map fun member =>
        member.handedOver targetId currentId }
    ownerId := targetId }

section Results

variable {invitationId memberId identifier : String} {now : ℤ}

theorem reinvite_eq_ok_iff :
    reinviteOrganizationMember toISOString state invitationId now identifier = .ok after ↔
      ∃ invitation, Resends state invitationId invitation ∧
        after = (state.reinvited toISOString invitationId now).audited
          state.governance.currentMemberId "organization.invitation.reinvite"
          ("Resent " ++ invitation.email ++ ".") (toISOString now) ("audit-" ++ identifier) := by
  simp only [reinviteOrganizationMember]
  constructor
  · intro resent
    split at resent
    case isTrue => cases resent
    case isFalse permitted =>
    split at resent
    case h_1 => cases resent
    case h_2 invitation found =>
    split at resent
    case isTrue => cases resent
    case isFalse isOpen =>
    cases resent
    refine ⟨invitation, ⟨by simpa using permitted, found, ?_⟩, rfl⟩
    cases status : invitation.status with
    | pending => exact .inl rfl
    | expired => exact .inr rfl
    | accepted => exact absurd (.inl status) isOpen
    | revoked => exact absurd (.inr status) isOpen
  · rintro ⟨invitation, resends, rfl⟩
    have isOpen : ¬ (invitation.status = .accepted ∨ invitation.status = .revoked) := by
      rcases resends.open_ with status | status
      · simp [status]
      · simp [status]
    rw [if_neg (by simp [resends.permitted]), resends.found]
    simp only
    rw [if_neg isOpen]
    rfl

theorem revoke_eq_ok
    (revoked : revokeOrganizationInvitation toISOString state invitationId now identifier =
      .ok after) :
    ∃ detail, after = (state.withRevoked invitationId).audited state.governance.currentMemberId
      "organization.invitation.revoke" detail (toISOString now) ("audit-" ++ identifier) := by
  simp only [revokeOrganizationInvitation] at revoked
  split at revoked
  case isTrue => cases revoked
  case isFalse =>
  split at revoked
  case h_1 => cases revoked
  case h_2 =>
  split at revoked
  case isTrue => cases revoked
  case isFalse =>
  cases revoked
  exact ⟨_, rfl⟩

/-- Somebody else gets the organization, or nothing changes. -/
theorem transfer_eq_ok_iff :
    transferOrganizationOwnership toISOString state memberId now identifier = .ok after →
      (after = state ∧ ∀ current target, ¬ HandsOver state memberId current target) ∨
      ∃ current target detail, HandsOver state memberId current target ∧
        after = (state.handedOver target.id current.id).audited current.id
          "organization.ownership.transfer" detail (toISOString now) ("audit-" ++ identifier) := by
  simp only [transferOrganizationOwnership]
  intro transferred
  split at transferred
  case h_1 => cases transferred
  case h_2 current isCurrent =>
  split at transferred
  case isTrue => cases transferred
  case isFalse isOwner =>
  split at transferred
  case isTrue => cases transferred
  case isFalse ssoDisabled =>
  split at transferred
  case isTrue => cases transferred
  case isFalse noPending =>
  split at transferred
  case h_1 => cases transferred
  case h_2 target found =>
  simp only [ne_eq, not_or, not_not] at isOwner
  split at transferred
  case isTrue same =>
    cases transferred
    left
    refine ⟨rfl, ?_⟩
    intro other otherTarget handsOver
    have sameCurrent := isCurrent.symm.trans handsOver.isCurrent
    have sameTarget := found.symm.trans handsOver.found
    cases sameCurrent
    cases sameTarget
    exact handsOver.another same
  case isFalse another =>
    cases transferred
    right
    refine ⟨current, target, _, ⟨isCurrent, isOwner.1, isOwner.2, by simpa using ssoDisabled, ?_,
      found, another⟩, rfl⟩
    intro invitation invitationMem pending
    exact noPending (List.any_eq_true.mpr ⟨invitation, invitationMem, decide_eq_true pending⟩)

theorem HandsOver.transfer_ne_error {current target : GovernanceMember}
    (handsOver : HandsOver state memberId current target) (message : String) :
    transferOrganizationOwnership toISOString state memberId now identifier ≠ .error message := by
  have noneOpen : (state.invitations.any fun invitation => invitation.status = .pending) =
      false := by
    simpa using handsOver.noPending
  simp only [transferOrganizationOwnership, handsOver.isCurrent, handsOver.named, handsOver.owner,
    handsOver.ssoDisabled, noneOpen, handsOver.found]
  rw [if_neg (by simp), if_neg (by simp), if_neg (by simp)]
  split
  · simp
  · simp

end Results

/-! ## The log -/

theorem logsOnce_afterCall (call : GovernanceCall) :
    LogsOnce toISOString call state (afterCall lowerCase toISOString state call) := by
  simp only [afterCall]
  split
  case h_2 => exact .refl call
  case h_1 after result =>
    cases call with
    | become memberId =>
        cases result
        exact ⟨rfl, .inl rfl⟩
    | create email role now invitationId identifier =>
        simp only [callResult] at result
        rcases map_eq_ok.mp result with ⟨created, createdOk, rfl⟩
        rcases create_eq_ok createdOk with ⟨invitation, detail, _, _, _, isAfter⟩
        rw [isAfter]
        exact logsOnce_audited (by rfl) (by rfl) (by rfl) _ _ _ _
    | reinvite invitationId now identifier =>
        rcases reinvite_eq_ok_iff.mp result with ⟨invitation, _, rfl⟩
        exact logsOnce_audited (by rfl) (by rfl) (by rfl) _ _ _ _
    | revoke invitationId now identifier =>
        rcases revoke_eq_ok result with ⟨detail, rfl⟩
        exact logsOnce_audited (by rfl) (by rfl) (by rfl) _ _ _ _
    | transfer memberId now identifier =>
        rcases transfer_eq_ok_iff result with ⟨rfl, _⟩ | ⟨current, target, detail, _, rfl⟩
        · exact .refl _
        · exact logsOnce_audited (by rfl) (by rfl) (by rfl) _ _ _ _

/-! ## Who is invited and who owns -/

theorem Invited.of_same {next : OrganizationGovernance} (invited : Invited lowerCase state)
    (sameInvitations : next.invitations = state.invitations)
    (sameMembers : next.governance.members = state.governance.members) :
    Invited lowerCase next := by
  constructor
  · rw [sameInvitations]
    exact invited.onceEach
  · intro invitation invitationMem pending member memberMem
    rw [sameInvitations] at invitationMem
    rw [sameMembers] at memberMem
    exact invited.outsiders invitation invitationMem pending member memberMem

theorem Owned.of_same {next : OrganizationGovernance} (owned : Owned state)
    (sameOwner : next.ownerId = state.ownerId)
    (sameMembers : next.governance.members = state.governance.members) : Owned next := by
  rcases owned with ⟨owner, only, active, named⟩
  exact ⟨owner, by rw [sameMembers, only], active, by rw [sameOwner, named]⟩

theorem Invited.append {invitation : OrganizationInvitation} (invited : Invited lowerCase state)
    (pending : invitation.isPending = true) (free : FreeAddress lowerCase state invitation.email)
    (noPending : ∀ other ∈ state.invitations, other.isPending = true →
      other.email ≠ invitation.email) :
    Invited lowerCase { state with invitations := state.invitations ++ [invitation] } := by
  constructor
  · simp only [List.filter_append, List.map_append, List.nodup_append, List.filter_cons, pending,
      if_true, List.filter_nil, List.map_cons, List.map_nil, List.mem_singleton]
    refine ⟨invited.onceEach, List.nodup_singleton _, ?_⟩
    intro email emailMem last isLast same
    rcases List.mem_map.mp emailMem with ⟨other, otherMem, rfl⟩
    rcases List.mem_filter.mp otherMem with ⟨otherMem, otherPending⟩
    exact noPending other otherMem otherPending (same.trans isLast)
  · intro other otherMem otherPending
    rcases List.mem_append.mp otherMem with old | isNew
    · exact invited.outsiders other old otherPending
    · rw [List.mem_singleton.mp isNew]
      exact free

theorem Invited.withRevoked (invited : Invited lowerCase state) (invitationId : String) :
    Invited lowerCase (state.withRevoked invitationId) := by
  have kept : ∀ invitations : List OrganizationInvitation,
      (((invitations.map fun candidate =>
          if candidate.id = invitationId then { candidate with status := .revoked }
          else candidate).filter (·.isPending)).map (·.email)).Sublist
        ((invitations.filter (·.isPending)).map (·.email)) := by
    intro invitations
    induction invitations with
    | nil => exact .slnil
    | cons invitation invitations ih =>
        rw [List.map_cons]
        by_cases same : invitation.id = invitationId
        · rw [if_pos same, List.filter_cons_of_neg (by simp [OrganizationInvitation.isPending])]
          apply ih.trans
          exact ((List.sublist_cons_self _ _).filter _).map _
        · rw [if_neg same]
          cases pending : invitation.isPending with
          | false =>
              rw [List.filter_cons_of_neg (by simp [pending]),
                List.filter_cons_of_neg (by simp [pending])]
              exact ih
          | true =>
              rw [List.filter_cons_of_pos pending, List.filter_cons_of_pos pending]
              exact ih.cons_cons _
  constructor
  · exact invited.onceEach.sublist (kept state.invitations)
  · intro invitation invitationMem pending
    rcases List.mem_map.mp invitationMem with ⟨candidate, candidateMem, rfl⟩
    split at pending
    case isTrue => simp [OrganizationInvitation.isPending] at pending
    case isFalse other =>
      rw [if_neg other]
      exact invited.outsiders candidate candidateMem pending

section Reinvited

variable {invitationId : String} {now : ℤ}

theorem reinvited_emails :
    ((state.reinvited toISOString invitationId now).invitations.filter (·.isPending)).map
        (·.email) =
      (state.invitations.filter fun invitation =>
        invitation.isPending ∨ invitation.id = invitationId).map (·.email) := by
  simp only [OrganizationGovernance.reinvited]
  induction state.invitations with
  | nil => rfl
  | cons invitation invitations ih =>
      rw [List.map_cons]
      by_cases same : invitation.id = invitationId
      · rw [if_pos same, List.filter_cons_of_pos (by simp [OrganizationInvitation.isPending,
          OrganizationInvitation.resent]), List.filter_cons_of_pos (by simp [same]), List.map_cons,
          List.map_cons, ih]
        rfl
      · rw [if_neg same]
        cases pending : invitation.isPending with
        | false =>
            rw [List.filter_cons_of_neg (by simp [pending]),
              List.filter_cons_of_neg (by simp [pending, same]), ih]
        | true =>
            rw [List.filter_cons_of_pos pending, List.filter_cons_of_pos (by simp [pending]),
              List.map_cons, List.map_cons, ih]

theorem invited_reinvited_iff (invited : Invited lowerCase state) :
    Invited lowerCase (state.reinvited toISOString invitationId now) ↔
      Resendable lowerCase state invitationId := by
  constructor
  · intro resent
    constructor
    · rw [← @reinvited_emails toISOString state invitationId now]
      exact resent.onceEach
    · intro invitation invitationMem same
      apply resent.outsiders (invitation.resent toISOString now)
      · exact List.mem_map.mpr ⟨invitation, invitationMem, if_pos same⟩
      · exact decide_eq_true rfl
  · intro resendable
    constructor
    · rw [reinvited_emails]
      exact resendable.onceEach
    · intro invitation invitationMem pending
      rcases List.mem_map.mp invitationMem with ⟨candidate, candidateMem, rfl⟩
      by_cases same : candidate.id = invitationId
      · rw [if_pos same]
        exact resendable.outsiders candidate candidateMem same
      · rw [if_neg same] at pending ⊢
        exact invited.outsiders candidate candidateMem pending

end Reinvited

section HandedOver

variable {memberId : String} {current target : GovernanceMember}

/-- Who owns the organization is the members with the identifier of the new owner. -/
theorem handedOver_owners (owned : Owned state)
    (handsOver : HandsOver state memberId current target) :
    (state.handedOver target.id current.id).governance.members.filter (·.isOwner) =
      (state.governance.members.filter fun member => member.id = memberId).map fun member =>
        { member with role := .owner } := by
  have sameId : target.id = memberId := by
    have found := List.find?_some handsOver.found
    simp only [decide_eq_true_eq] at found
    exact found.1
  have onlyCurrent : ∀ member ∈ state.governance.members, member.isOwner = true →
      member.id = current.id := by
    rcases owned with ⟨owner, only, _, named⟩
    intro member memberMem isOwner
    have isOnly := List.mem_filter.mpr ⟨memberMem, isOwner⟩
    rw [only, List.mem_singleton] at isOnly
    rw [isOnly, named, handsOver.named]
  simp only [OrganizationGovernance.handedOver]
  rw [sameId]
  generalize state.governance.members = members at onlyCurrent
  induction members with
  | nil => rfl
  | cons member members ih =>
      have rest := ih fun other otherMem => onlyCurrent other (List.mem_cons_of_mem _ otherMem)
      rw [List.map_cons]
      by_cases isTarget : member.id = memberId
      · rw [List.filter_cons_of_pos (by simp [GovernanceMember.handedOver, isTarget,
          GovernanceMember.isOwner]), List.filter_cons_of_pos (by simp [isTarget]), rest,
          List.map_cons]
        simp [GovernanceMember.handedOver, isTarget]
      · have notOwner : (member.handedOver memberId current.id).isOwner = false := by
          simp only [GovernanceMember.handedOver, if_neg isTarget]
          split
          case isTrue => rfl
          case isFalse another =>
            rw [Bool.eq_false_iff]
            exact fun isOwner => another (onlyCurrent member List.mem_cons_self isOwner)
        rw [List.filter_cons_of_neg (by simp [notOwner]),
          List.filter_cons_of_neg (by simp [isTarget]), rest]

theorem owned_handedOver_iff (owned : Owned state)
    (handsOver : HandsOver state memberId current target) :
    Owned (state.handedOver target.id current.id) ↔ OneMember state memberId := by
  have found := List.find?_some handsOver.found
  simp only [decide_eq_true_eq] at found
  have targetMem : target ∈ state.governance.members.filter fun member => member.id = memberId :=
    List.mem_filter.mpr ⟨List.mem_of_find?_eq_some handsOver.found, decide_eq_true found.1⟩
  unfold Owned OneMember
  rw [handedOver_owners owned handsOver]
  constructor
  · rintro ⟨owner, only, _⟩
    have count := congrArg List.length only
    rwa [List.length_map] at count
  · intro one
    rcases List.length_eq_one_iff.mp one with ⟨only, isOnly⟩
    rw [isOnly, List.mem_singleton] at targetMem
    subst targetMem
    rw [isOnly]
    exact ⟨_, rfl, found.2, rfl⟩

theorem HandsOver.invited (handsOver : HandsOver state memberId current target) :
    Invited lowerCase (state.handedOver target.id current.id) := by
  have noPending : ∀ invitation ∈ state.invitations, ¬ invitation.isPending = true := by
    intro invitation invitationMem pending
    exact handsOver.noPending invitation invitationMem (of_decide_eq_true pending)
  constructor
  · simp only [OrganizationGovernance.handedOver]
    rw [List.filter_eq_nil_iff.mpr noPending]
    exact List.nodup_nil
  · intro invitation invitationMem pending
    exact absurd pending (noPending invitation invitationMem)

end HandedOver

/-! ## Runs -/

theorem afterCall_of_ok {call : GovernanceCall}
    (result : callResult lowerCase toISOString state call = .ok after) :
    afterCall lowerCase toISOString state call = after := by
  simp only [afterCall, result]

theorem afterCall_of_error {call : GovernanceCall} {message : String}
    (result : callResult lowerCase toISOString state call = .error message) :
    afterCall lowerCase toISOString state call = state := by
  simp only [afterCall, result]

/-- A call keeps the invitations and the owner in order exactly if it is allowed. -/
theorem organized_afterCall_iff (call : GovernanceCall) (invited : Invited lowerCase state)
    (owned : Owned state) :
    Invited lowerCase (afterCall lowerCase toISOString state call) ∧
        Owned (afterCall lowerCase toISOString state call) ↔
      AllowedCall lowerCase state call := by
  cases call with
  | become memberId =>
      rw [@afterCall_of_ok lowerCase toISOString state _ (.become memberId) rfl]
      exact iff_of_true ⟨invited.of_same rfl rfl, owned.of_same rfl rfl⟩ trivial
  | create email role now invitationId identifier =>
      refine iff_of_true ?_ trivial
      cases result : callResult lowerCase toISOString state
          (.create email role now invitationId identifier) with
      | error message =>
          rw [afterCall_of_error result]
          exact ⟨invited, owned⟩
      | ok after =>
          rw [afterCall_of_ok result]
          simp only [callResult] at result
          rcases map_eq_ok.mp result with ⟨created, createdOk, rfl⟩
          rcases create_eq_ok createdOk with ⟨invitation, detail, pending, free, once, isAfter⟩
          rw [isAfter, invited_audited, owned_audited]
          exact ⟨invited.append pending free once, owned.of_same rfl rfl⟩
  | reinvite invitationId now identifier =>
      cases result : callResult lowerCase toISOString state
          (.reinvite invitationId now identifier) with
      | error message =>
          rw [afterCall_of_error result]
          refine iff_of_true ⟨invited, owned⟩ ?_
          rintro ⟨invitation, resends⟩
          have resent : reinviteOrganizationMember toISOString state invitationId now identifier =
              .ok _ := reinvite_eq_ok_iff.mpr ⟨invitation, resends, rfl⟩
          cases result.symm.trans resent
      | ok after =>
          rw [afterCall_of_ok result]
          rcases reinvite_eq_ok_iff.mp result with ⟨invitation, resends, rfl⟩
          have stillOwned : Owned (state.reinvited toISOString invitationId now) :=
            owned.of_same rfl rfl
          rw [invited_audited, owned_audited, invited_reinvited_iff invited,
            and_iff_left stillOwned]
          exact ⟨fun resendable _ => resendable, fun allowed => allowed ⟨invitation, resends⟩⟩
  | revoke invitationId now identifier =>
      refine iff_of_true ?_ trivial
      cases result : callResult lowerCase toISOString state
          (.revoke invitationId now identifier) with
      | error message =>
          rw [afterCall_of_error result]
          exact ⟨invited, owned⟩
      | ok after =>
          rw [afterCall_of_ok result]
          rcases revoke_eq_ok result with ⟨detail, rfl⟩
          rw [invited_audited, owned_audited]
          exact ⟨invited.withRevoked invitationId, owned.of_same rfl rfl⟩
  | transfer memberId now identifier =>
      cases result : callResult lowerCase toISOString state
          (.transfer memberId now identifier) with
      | error message =>
          rw [afterCall_of_error result]
          refine iff_of_true ⟨invited, owned⟩ ?_
          rintro ⟨current, target, handsOver⟩
          exact absurd result (handsOver.transfer_ne_error message)
      | ok after =>
          rw [afterCall_of_ok result]
          rcases transfer_eq_ok_iff result with ⟨rfl, stays⟩ | ⟨current, target, _, handsOver, rfl⟩
          · refine iff_of_true ⟨invited, owned⟩ ?_
            rintro ⟨current, target, handsOver⟩
            exact absurd handsOver (stays current target)
          · rw [invited_audited, owned_audited, owned_handedOver_iff owned handsOver,
              and_iff_right handsOver.invited]
            exact ⟨fun one _ => one, fun allowed => allowed ⟨current, target, handsOver⟩⟩

theorem AuditBounded.afterCall (bounded : AuditBounded state) (call : GovernanceCall) :
    AuditBounded (afterCall lowerCase toISOString state call) := by
  have logs : LogsOnce toISOString call state _ := @logsOnce_afterCall lowerCase toISOString _ call
  unfold AuditBounded
  rw [logs.sameLimit]
  rcases logs.logged with same | ⟨event, now, _, _, logged⟩
  · rw [same]
    exact bounded
  · rw [logged]
    exact List.length_take_le _ _

theorem NewestFirst.afterCall {initial : OrganizationGovernance} {calls : List GovernanceCall}
    (newest : NewestFirst toISOString initial calls state) (call : GovernanceCall) :
    NewestFirst toISOString initial (calls ++ [call])
      (afterCall lowerCase toISOString state call) := by
  have logs : LogsOnce toISOString call state _ := @logsOnce_afterCall lowerCase toISOString _ call
  rcases newest with ⟨events, inOrder, isAudit⟩
  unfold NewestFirst
  rw [logs.sameLimit, List.reverse_append, List.reverse_singleton, List.singleton_append]
  rcases logs.logged with same | ⟨event, now, time, stamped, logged⟩
  · refine ⟨events, inOrder.trans ?_, by rw [same, isAudit]⟩
    exact ((List.sublist_cons_self _ _).filterMap _).map _
  · refine ⟨event :: events, ?_, ?_⟩
    · rw [List.filterMap_cons_some time, List.map_cons, List.map_cons, stamped]
      exact inOrder.cons_cons _
    · rw [logged, isAudit, List.cons_append]
      -- what the log had dropped before is dropped again
      cases auditLimit state.governance with
      | zero => rfl
      | succ limit =>
          rw [List.take_succ_cons, List.take_succ_cons, List.take_take,
            Nat.min_eq_left (Nat.le_succ limit)]

/-- An organization in order stays so, with a log that begins with the newest events, along the
calls that are allowed if the log was within its bound, and along no others. -/
theorem keepsOrganization_iff (initial : OrganizationGovernance) (calls : List GovernanceCall)
    (invited : Invited lowerCase initial) (owned : Owned initial) :
    KeepsOrganization lowerCase toISOString initial calls ↔
      AuditBounded initial ∧
        EveryStep (afterCall lowerCase toISOString) initial calls (AllowedCall lowerCase) := by
  have organized : EveryState (afterCall lowerCase toISOString) initial calls (fun state =>
      Invited lowerCase state ∧ Owned state) ↔
      EveryStep (afterCall lowerCase toISOString) initial calls (AllowedCall lowerCase) :=
    everyState_iff_everyStep calls ⟨invited, owned⟩ fun _ call holds =>
      organized_afterCall_iff call holds.1 holds.2
  constructor
  · intro keeps
    exact ⟨keeps.bounded 0 (Nat.zero_le _), organized.mp keeps.organized⟩
  · rintro ⟨bounded, allowed⟩
    constructor
    · exact organized.mpr allowed
    · exact EveryState.of_everyStep bounded (fun state call holds _ => holds.afterCall call) allowed
    · intro n
      induction n with
      | zero =>
          intro _
          exact ⟨[], .slnil, by rw [stateAt_zero, List.nil_append, List.take_of_length_le bounded]⟩
      | succ n ih =>
          intro inRange
          rw [stateAt_succ inRange, List.take_succ_eq_append_getElem inRange]
          exact (ih (Nat.le_of_lt inRange)).afterCall _
    · intro n inRange message throws
      rw [stateAt_succ inRange]
      exact afterCall_of_error throws

/-- Olga owns the shop; of its two invitations to one address, the older one has expired. -/
def shopOrganization : OrganizationGovernance where
  governance :=
    { currentMemberId := "olga"
      members := [⟨"olga", "Olga", "olga@shop.test", .owner, true, .manual, "", [], ""⟩]
      teams := []
      resourceGrants := []
      organization := ⟨[], .null⟩
      sso := ⟨false, .null⟩
      scim := .null
      policy := ⟨500, .null⟩
      audit := [] }
  ownerId := "olga"
  invitations :=
    [⟨"old", "ann@shop.test", .editor, .expired, "", "", ""⟩,
      ⟨"new", "ann@shop.test", .editor, .pending, "", "", ""⟩]

theorem shop_invited : Invited id shopOrganization := by
  constructor
  · decide
  · intro invitation invitationMem pending member memberMem _
    rw [show shopOrganization.governance.members =
      [⟨"olga", "Olga", "olga@shop.test", .owner, true, .manual, "", [], ""⟩] from rfl,
      List.mem_singleton] at memberMem
    simp only [shopOrganization, List.mem_cons, List.not_mem_nil, or_false] at invitationMem
    subst memberMem
    rcases invitationMem with rfl | rfl
    · decide
    · decide

theorem shop_owned : Owned shopOrganization :=
  ⟨_, rfl, rfl, rfl⟩

/-- The pending invitation is revoked before the expired one is resent. -/
def shopCalls : List GovernanceCall :=
  [.revoke "new" 1 "first", .reinvite "old" 2 "second",
    .create "bob@shop.test" .editor 3 "bob" "third"]

theorem shop_keepsOrganization :
    KeepsOrganization id toString shopOrganization shopCalls ∧
      (stateAt (afterCall id toString) shopOrganization shopCalls 3).invitations.map
          (fun invitation => (invitation.id, invitation.status)) =
        [("old", .pending), ("new", .revoked), ("invitation-bob", .pending)] := by
  refine ⟨(keepsOrganization_iff shopOrganization _ shop_invited shop_owned).mpr
    ⟨by unfold AuditBounded; decide, ?_⟩, by decide⟩
  rw [shopCalls, everyStep_cons_iff, everyStep_cons_iff, everyStep_cons_iff]
  refine ⟨trivial, fun _ => ⟨by decide, ?_⟩, trivial, nofun⟩
  unfold FreeAddress
  decide

/-- Resending the expired invitation leaves two pending ones. -/
theorem resent_twice : ¬ ∀ (initial : OrganizationGovernance) (calls : List GovernanceCall),
    Invited id initial → Owned initial → KeepsOrganization id toString initial calls := by
  intro keeps
  have after := (keeps shopOrganization [.reinvite "old" 0 "event"] shop_invited
    shop_owned).organized 1 le_rfl
  have onceEach := after.1.onceEach
  revert onceEach
  decide

end Brunomnia.Governance
