import Brunomnia.Governance.Members

/-!
# Invitations and ownership

How the members of an organization invite others, resend and revoke invitations, and hand the
organization over. The texts of a time and the identifiers that are drawn are parameters.
-/

namespace Brunomnia.Governance

open Library

/-! ## Records -/

inductive InvitationStatus where
  | pending
  | accepted
  | revoked
  | expired
  deriving DecidableEq

structure OrganizationInvitation where
  id : String
  email : String
  role : GovernanceRole
  status : InvitationStatus
  createdAt : String
  expiresAt : String
  lastSentAt : String
  deriving DecidableEq

/-- A governance with the fields of its organization that change here. -/
structure OrganizationGovernance where
  governance : GovernanceConfig
  ownerId : String
  invitations : List OrganizationInvitation
  deriving DecidableEq

/-! ## Permissions -/

inductive OrganizationPermission where
  | ownOrganization
  | readOrganization
  | deleteOrganization
  | updateOrganization
  | readMembership
  | deleteMembership
  | updateMembership
  | readInvitation
  | createInvitation
  | deleteInvitation
  | createEnterpriseConnection
  | readEnterpriseConnection
  | deleteEnterpriseConnection
  | updateEnterpriseConnection
  | leaveOrganization
  deriving DecidableEq

def organizationPermissions : List OrganizationPermission :=
  [.ownOrganization, .readOrganization, .deleteOrganization, .updateOrganization, .readMembership,
    .deleteMembership, .updateMembership, .readInvitation, .createInvitation, .deleteInvitation,
    .createEnterpriseConnection, .readEnterpriseConnection, .deleteEnterpriseConnection,
    .updateEnterpriseConnection, .leaveOrganization]

def permissionsByRole : GovernanceRole → List OrganizationPermission
  | .owner => organizationPermissions.filter fun permission => permission ≠ .leaveOrganization
  | .admin => organizationPermissions.filter fun permission =>
      permission ≠ .ownOrganization ∧ permission ≠ .deleteOrganization
  | .editor => [.readOrganization, .readMembership, .readInvitation, .readEnterpriseConnection,
      .leaveOrganization]
  | .viewer => [.readOrganization, .readMembership, .readInvitation, .readEnterpriseConnection,
      .leaveOrganization]

def permissionsForMember (governance : GovernanceConfig) (memberId : String) :
    OrganizationPermission → Bool :=
  let member := governance.members.find? fun candidate =>
    candidate.id = memberId ∧ candidate.active
  let permissions := (member.map fun member => permissionsByRole member.role).getD []
  fun permission => permission ∈ organizationPermissions ∧ permission ∈ permissions

def hasOrganizationPermission (governance : GovernanceConfig)
    (permission : OrganizationPermission) : Bool :=
  permissionsForMember governance governance.currentMemberId permission

/-! ## Operations -/

def GovernanceRole.text : GovernanceRole → String
  | owner => "owner"
  | admin => "admin"
  | editor => "editor"
  | viewer => "viewer"

/-- A letter that is neither white space nor `@`. -/
def isEmailLetter (letter : Char) : Bool :=
  !isWhiteSpace letter ∧ letter ≠ '@'

/-- One `@`, with letters before it and a dot among the letters behind it. -/
def isInvitationEmail (email : String) : Bool :=
  match email.toList.splitOn '@' with
  | [name, domain] =>
      name ≠ [] ∧ name.all isEmailLetter ∧ domain.all isEmailLetter ∧ '.' ∈ domain.tail.dropLast
  | _ => false

/-- Thirty days, in milliseconds. -/
def invitationLifetime : ℤ :=
  30 * 24 * 60 * 60 * 1000

/-- A state with one event logged. -/
def OrganizationGovernance.audited (state : OrganizationGovernance)
    (actorId action detail now identifier : String) : OrganizationGovernance :=
  { state with governance := audit state.governance actorId action detail now identifier }

section Operations

variable (lowerCase : String → String) (toISOString : ℤ → String)

def createOrganizationInvitation (state : OrganizationGovernance) (email : String)
    (role : GovernanceRole) (now : ℤ) (invitationId identifier : String) :
    Except String (OrganizationGovernance × OrganizationInvitation) :=
  if !hasOrganizationPermission state.governance .createInvitation then
    .error "The current member cannot create organization invitations."
  else
    let normalizedEmail := normalizeEmail lowerCase email
    if !isInvitationEmail normalizedEmail then
      .error "Enter a valid invitation email address."
    else if state.governance.members.any fun member =>
        normalizeEmail lowerCase member.email = normalizedEmail ∧ member.active then
      .error "That email already belongs to an active organization member."
    else if (state.invitations.find? fun invitation =>
        invitation.email = normalizedEmail ∧ invitation.status = .pending).isSome then
      .error "That email already has a pending invitation."
    else
      let invitation : OrganizationInvitation :=
        { id := "invitation-" ++ invitationId
          email := normalizedEmail
          role
          status := .pending
          createdAt := toISOString now
          expiresAt := toISOString (now + invitationLifetime)
          lastSentAt := toISOString now }
      let next := { state with invitations := state.invitations ++ [invitation] }
      .ok (next.audited state.governance.currentMemberId "organization.invitation.create"
        ("Invited " ++ normalizedEmail ++ " as " ++ role.text ++ ".") (toISOString now)
        ("audit-" ++ identifier), invitation)

/-- An invitation that is sent once more. -/
def OrganizationInvitation.resent (invitation : OrganizationInvitation) (now : ℤ) :
    OrganizationInvitation :=
  { invitation with
    status := .pending
    expiresAt := toISOString (now + invitationLifetime)
    lastSentAt := toISOString now }

def reinviteOrganizationMember (state : OrganizationGovernance) (invitationId : String) (now : ℤ)
    (identifier : String) : Except String OrganizationGovernance :=
  if !hasOrganizationPermission state.governance .createInvitation then
    .error "The current member cannot resend organization invitations."
  else
    match state.invitations.find? fun candidate => candidate.id = invitationId with
    | none => .error "Only pending or expired invitations can be resent."
    | some invitation =>
        if invitation.status = .accepted ∨ invitation.status = .revoked then
          .error "Only pending or expired invitations can be resent."
        else
          let invitations := state.invitations.map fun candidate =>
            if candidate.id = invitationId then candidate.resent toISOString now else candidate
          .ok ({ state with invitations }.audited state.governance.currentMemberId
            "organization.invitation.reinvite" ("Resent " ++ invitation.email ++ ".")
            (toISOString now) ("audit-" ++ identifier))

def revokeOrganizationInvitation (state : OrganizationGovernance) (invitationId : String)
    (now : ℤ) (identifier : String) : Except String OrganizationGovernance :=
  if !hasOrganizationPermission state.governance .deleteInvitation then
    .error "The current member cannot revoke organization invitations."
  else
    match state.invitations.find? fun candidate => candidate.id = invitationId with
    | none => .error "Only pending invitations can be revoked."
    | some invitation =>
        if invitation.status ≠ .pending then .error "Only pending invitations can be revoked."
        else
          let invitations := state.invitations.map fun candidate =>
            if candidate.id = invitationId then { candidate with status := .revoked }
            else candidate
          .ok ({ state with invitations }.audited state.governance.currentMemberId
            "organization.invitation.revoke" ("Revoked " ++ invitation.email ++ ".")
            (toISOString now) ("audit-" ++ identifier))

/-- A member after the organization went from one member to another. -/
def GovernanceMember.handedOver (member : GovernanceMember) (targetId currentId : String) :
    GovernanceMember :=
  if member.id = targetId then { member with role := .owner }
  else if member.id = currentId then { member with role := .admin }
  else member

def transferOrganizationOwnership (state : OrganizationGovernance) (memberId : String) (now : ℤ)
    (identifier : String) : Except String OrganizationGovernance :=
  match currentGovernanceMember state.governance with
  | none => .error "Only the organization owner can transfer ownership."
  | some current =>
      if current.id ≠ state.ownerId ∨ current.role ≠ .owner then
        .error "Only the organization owner can transfer ownership."
      else if state.governance.sso.enabled then
        .error "Disable SSO before transferring the organization."
      else if state.invitations.any fun invitation => invitation.status = .pending then
        .error "Revoke all pending invitations before transferring the organization."
      else
        match state.governance.members.find? fun member =>
            member.id = memberId ∧ member.active with
        | none => .error "The new owner must already be an active organization member."
        | some target =>
            if target.id = current.id then .ok state
            else
              let members := state.governance.members.map fun member =>
                member.handedOver target.id current.id
              let next : OrganizationGovernance :=
                { state with
                  governance := { state.governance with members }
                  ownerId := target.id }
              .ok (next.audited current.id "organization.ownership.transfer"
                ("Transferred ownership to " ++
                  (if target.email = "" then target.name else target.email) ++ ".")
                (toISOString now) ("audit-" ++ identifier))

end Operations

/-! ## Calls -/

/-- A call, with the time at which it is made and the identifiers that are drawn; between two
calls somebody else may become the current member. -/
inductive GovernanceCall where
  | become (memberId : String)
  | create (email : String) (role : GovernanceRole) (now : ℤ) (invitationId identifier : String)
  | reinvite (invitationId : String) (now : ℤ) (identifier : String)
  | revoke (invitationId : String) (now : ℤ) (identifier : String)
  | transfer (memberId : String) (now : ℤ) (identifier : String)

/-- When a call is made. -/
def GovernanceCall.time : GovernanceCall → Option ℤ
  | become _ => none
  | create _ _ now _ _ => some now
  | reinvite _ now _ => some now
  | revoke _ now _ => some now
  | transfer _ now _ => some now

section Calls

variable (lowerCase : String → String) (toISOString : ℤ → String)

def callResult (state : OrganizationGovernance) : GovernanceCall →
    Except String OrganizationGovernance
  | .become memberId =>
      .ok { state with governance := { state.governance with currentMemberId := memberId } }
  | .create email role now invitationId identifier =>
      (createOrganizationInvitation lowerCase toISOString state email role now invitationId
        identifier).map Prod.fst
  | .reinvite invitationId now identifier =>
      reinviteOrganizationMember toISOString state invitationId now identifier
  | .revoke invitationId now identifier =>
      revokeOrganizationInvitation toISOString state invitationId now identifier
  | .transfer memberId now identifier =>
      transferOrganizationOwnership toISOString state memberId now identifier

/-- The governance that the caller keeps: the old one if the call throws. -/
def afterCall (state : OrganizationGovernance) (call : GovernanceCall) : OrganizationGovernance :=
  match callResult lowerCase toISOString state call with
  | .ok after => after
  | .error _ => state

end Calls

end Brunomnia.Governance
