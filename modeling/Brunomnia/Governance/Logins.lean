import Brunomnia.Governance.Members

/-!
# Logins

What a governance records after a login, read off its fields: the first active member with the
address that was authenticated is the current one, only the members with that id are changed,
and one event with the time and a drawn identifier stands in front of the log. A governance that
records a login is one that the source makes of some identity at some time.
-/

namespace Brunomnia.Governance

variable {lowerCase : String → String} {current proposed : GovernanceConfig}

/-! ## Times and identifiers -/

/-- A time that a `Date` can hold, in milliseconds since 1970. -/
structure Date where
  time : ℤ
  inRange : time.natAbs ≤ 8640000000000000

/-- The year, month and day of a number of days since 1970. -/
def civilDate (days : ℤ) : ℤ × ℤ × ℤ :=
  -- Years begin in March here, so that the leap day is the last one.
  let shifted := days + 719468
  let dayOfEra := shifted % 146097
  let yearOfEra := (dayOfEra - dayOfEra / 1460 + dayOfEra / 36524 - dayOfEra / 146096) / 365
  let dayOfYear := dayOfEra - (365 * yearOfEra + yearOfEra / 4 - yearOfEra / 100)
  let monthFromMarch := (5 * dayOfYear + 2) / 153
  let month := if monthFromMarch < 10 then monthFromMarch + 3 else monthFromMarch - 9
  (yearOfEra + shifted / 146097 * 400 + if month ≤ 2 then 1 else 0, month,
    dayOfYear - (153 * monthFromMarch + 2) / 5 + 1)

def padded (width number : ℕ) : String :=
  String.ofList ((Nat.toDigits 10 number).leftpad width '0')

/-- Years beyond four digits have a sign and six. -/
def yearText (year : ℤ) : String :=
  if 0 ≤ year ∧ year ≤ 9999 then padded 4 year.toNat
  else (if year < 0 then "-" else "+") ++ padded 6 year.natAbs

/-- `date.toISOString()`. -/
def Date.toISOString (date : Date) : String :=
  let (year, month, day) := civilDate (date.time / 86400000)
  let ofDay := (date.time % 86400000).toNat
  yearText year ++ "-" ++ padded 2 month.toNat ++ "-" ++ padded 2 day.toNat ++ "T" ++
    padded 2 (ofDay / 3600000) ++ ":" ++ padded 2 (ofDay / 60000 % 60) ++ ":" ++
    padded 2 (ofDay / 1000 % 60) ++ "." ++ padded 3 (ofDay % 1000) ++ "Z"

theorem Date.toISOString_getLast (date : Date) :
    date.toISOString.toList.getLast? = some 'Z' := by
  simp only [toISOString]
  rw [String.toList_append]
  exact List.getLast?_concat

example : ¬ ∃ date : Date, date.toISOString = "not a time" := by
  rintro ⟨date, same⟩
  have last := date.toISOString_getLast
  rw [same] at last
  revert last
  decide

/-- A letter at a place of the layout: `x` stands for a digit of sixteen, `y` for one of four. -/
def fitsPlace (place letter : Char) : Bool :=
  if place = 'x' then letter ∈ "0123456789abcdef".toList
  else if place = 'y' then letter ∈ "89ab".toList
  else letter = place

/-- A text of `crypto.randomUUID()`. -/
def IsRandomUuid (text : String) : Prop :=
  List.Forall₂ (fun place letter => fitsPlace place letter = true)
    "xxxxxxxx-xxxx-4xxx-yxxx-xxxxxxxxxxxx".toList text.toList

instance (text : String) : Decidable (IsRandomUuid text) :=
  inferInstanceAs (Decidable (List.Forall₂ _ _ _))

/-- The governance after some login. -/
def IsLogin (lowerCase : String → String) (current next : GovernanceConfig) : Prop :=
  ∃ (identity : AuthenticatedIdentity) (now : Date) (uuid : String), IsRandomUuid uuid ∧
    applyAuthenticatedIdentity lowerCase current identity now.toISOString ("audit-" ++ uuid) =
      .ok next

/-! ## What a login records -/

/-- Members that agree in what a login never changes. -/
structure SameStanding (previous member : GovernanceMember) : Prop where
  email : previous.email = member.email
  role : previous.role = member.role
  active : previous.active = member.active
  source : previous.source = member.source

theorem GovernanceMember.authenticated_standing (member : GovernanceMember)
    (identity : AuthenticatedIdentity) (teamIds : List String) (now : String) :
    SameStanding member (member.authenticated identity teamIds now) := by
  unfold GovernanceMember.authenticated
  exact ⟨rfl, rfl, rfl, rfl⟩

theorem SameStanding.trans {first second third : GovernanceMember}
    (left : SameStanding first second) (right : SameStanding second third) :
    SameStanding first third :=
  ⟨left.email.trans right.email, left.role.trans right.role, left.active.trans right.active,
    left.source.trans right.source⟩

theorem SameStanding.symm {first second : GovernanceMember} (same : SameStanding first second) :
    SameStanding second first :=
  ⟨same.email.symm, same.role.symm, same.active.symm, same.source.symm⟩

/-- Governances that agree in what a login never changes. -/
structure SameSettings (current proposed : GovernanceConfig) : Prop where
  organization : current.organization = proposed.organization
  sso : current.sso = proposed.sso
  scim : current.scim = proposed.scim
  policy : current.policy = proposed.policy
  teams : current.teams = proposed.teams
  resourceGrants : current.resourceGrants = proposed.resourceGrants

/-- The teams that the groups of an identity name, or that have one of them as external id. -/
def JoinedBy (lowerCase : String → String) (groups : List String) (team : GovernanceTeam) : Prop :=
  team.externalId ∈ groups ∨ ∃ group ∈ groups, lowerCase group = lowerCase team.name

instance (lowerCase : String → String) (groups : List String) (team : GovernanceTeam) :
    Decidable (JoinedBy lowerCase groups team) :=
  inferInstanceAs (Decidable (_ ∨ _))

/-- What a login at some time makes of a member. -/
structure SignedIn (lowerCase : String → String) (teams : List GovernanceTeam)
    (identity : AuthenticatedIdentity) (time : String) (previous member : GovernanceMember) :
    Prop where
  id : member.id = previous.id
  standing : SameStanding previous member
  named : trim identity.name ≠ "" → member.name = trim identity.name
  unnamed : trim identity.name = "" → member.name = previous.name
  unlinked : previous.externalId = "" → member.externalId = identity.subject
  linked : previous.externalId ≠ "" → member.externalId = previous.externalId
  teamIds : member.teamIds = (previous.teamIds ++
    (teams.filter fun team => JoinedBy lowerCase identity.groups team).map
      GovernanceTeam.id).eraseDups
  lastAuthenticatedAt : member.lastAuthenticatedAt = time

/-- What a governance says of a login of a member, with the event that was logged. -/
structure LoginRecord (lowerCase : String → String) (current proposed : GovernanceConfig)
    (identity : AuthenticatedIdentity) (member : GovernanceMember) (event : AuditEvent) :
    Prop where
  email : normalizeEmail lowerCase member.email = normalizeEmail lowerCase identity.email
  active : member.active = true
  identified : ∃ before after, current.members = before ++ member :: after ∧
    ∀ earlier ∈ before, earlier.active = true →
      normalizeEmail lowerCase earlier.email ≠ normalizeEmail lowerCase identity.email
  domain : ∃ domain ∈ current.organization.domains, domain.verifiedAt ≠ "" ∧
    domain.domain ≠ "" ∧
    domain.domain = emailDomain lowerCase (normalizeEmail lowerCase identity.email)
  currentMemberId : proposed.currentMemberId = member.id
  members : List.Forall₂ (fun previous changed =>
    (previous.id = member.id →
      SignedIn lowerCase current.teams identity event.timestamp previous changed) ∧
    (previous.id ≠ member.id → changed = previous)) current.members proposed.members
  timestamp : ∃ date : Date, event.timestamp = date.toISOString
  id : ∃ uuid, IsRandomUuid uuid ∧ event.id = "audit-" ++ uuid
  actorId : event.actorId = member.id
  action : event.action = "sso.login"
  detail : event.detail = identity.protocol.upperCase ++ " login for " ++
    normalizeEmail lowerCase identity.email ++ "."
  audit : proposed.audit = (event :: current.audit).take (auditLimit current)

def RecordsLogin (lowerCase : String → String) (current proposed : GovernanceConfig) : Prop :=
  ∃ identity member event, LoginRecord lowerCase current proposed identity member event

/-! ## Logins record one login -/

/-- The ids of the teams that the source finds for an identity. -/
theorem joinedBy_iff {groups : List String} {team : GovernanceTeam} :
    (groups.any fun group =>
        lowerCase group = lowerCase team.name ∨ group = team.externalId) = true ↔
      JoinedBy lowerCase groups team := by
  simp only [List.any_eq_true, decide_eq_true_eq, JoinedBy]
  constructor
  · rintro ⟨group, groupMem, named | rfl⟩
    · exact .inr ⟨group, groupMem, named⟩
    · exact .inl groupMem
  · rintro (groupMem | ⟨group, groupMem, named⟩)
    · exact ⟨_, groupMem, .inr rfl⟩
    · exact ⟨group, groupMem, .inl named⟩

theorem signedIn_iff {teams : List GovernanceTeam} {identity : AuthenticatedIdentity}
    {time : String} {previous member : GovernanceMember} :
    SignedIn lowerCase teams identity time previous member ↔
      member = previous.authenticated identity
        ((teams.filter fun team => JoinedBy lowerCase identity.groups team).map
          GovernanceTeam.id) time := by
  constructor
  · intro signedIn
    rcases member with ⟨id, name, email, role, active, source, externalId, teamIds, last⟩
    have standing := signedIn.standing
    simp only [GovernanceMember.authenticated, GovernanceMember.mk.injEq]
    refine ⟨signedIn.id, ?_, standing.email.symm, standing.role.symm, standing.active.symm,
      standing.source.symm, ?_, signedIn.teamIds, signedIn.lastAuthenticatedAt⟩
    · split
      case isTrue unnamed => exact signedIn.unnamed unnamed
      case isFalse named => exact signedIn.named named
    · split
      case isTrue unlinked => exact signedIn.unlinked unlinked
      case isFalse linked => exact signedIn.linked linked
  · rintro rfl
    simp only [GovernanceMember.authenticated]
    refine ⟨rfl, ⟨rfl, rfl, rfl, rfl⟩, ?_, ?_, ?_, ?_, rfl, rfl⟩
    · intro named
      rw [if_neg named]
    · intro unnamed
      rw [if_pos unnamed]
    · intro unlinked
      rw [if_pos unlinked]
    · intro linked
      rw [if_neg linked]

/-- Members of whom only those with one id signed in. -/
theorem forall₂_signedIn_iff {identity : AuthenticatedIdentity} {time id : String}
    {teams : List GovernanceTeam} {previous members : List GovernanceMember} :
    List.Forall₂ (fun previous changed =>
        (previous.id = id → SignedIn lowerCase teams identity time previous changed) ∧
        (previous.id ≠ id → changed = previous)) previous members ↔
      members = previous.map fun candidate =>
        if candidate.id = id then candidate.authenticated identity
          ((teams.filter fun team => JoinedBy lowerCase identity.groups team).map
            GovernanceTeam.id) time
        else candidate := by
  rw [eq_comm, ← List.forall₂_eq_eq_eq, List.forall₂_map_left_iff]
  have same : ∀ candidate changed : GovernanceMember,
      ((candidate.id = id → SignedIn lowerCase teams identity time candidate changed) ∧
        (candidate.id ≠ id → changed = candidate)) ↔
      (if candidate.id = id then candidate.authenticated identity
          ((teams.filter fun team => JoinedBy lowerCase identity.groups team).map
            GovernanceTeam.id) time
        else candidate) = changed := by
    intro candidate changed
    by_cases sameId : candidate.id = id
    · simp [sameId, signedIn_iff, eq_comm]
    · simp [sameId, eq_comm]
  simp only [same]

theorem identityEmailIsAllowed_iff {email : String} :
    identityEmailIsAllowed lowerCase current email = true ↔
      ∃ domain ∈ current.organization.domains, domain.verifiedAt ≠ "" ∧
        domain.domain ≠ "" ∧ domain.domain = emailDomain lowerCase email := by
  have allowed : identityEmailIsAllowed lowerCase current email = true ↔
      emailDomain lowerCase email ≠ "" ∧ ∃ domain ∈ verifiedDomains current,
        domain.domain = emailDomain lowerCase email := by
    simp [identityEmailIsAllowed]
  rw [allowed]
  simp only [verifiedDomains, List.mem_filter, decide_eq_true_eq]
  constructor
  · rintro ⟨given, domain, ⟨domainMem, verified⟩, same⟩
    exact ⟨domain, domainMem, verified, same ▸ given, same⟩
  · rintro ⟨domain, domainMem, verified, given, same⟩
    exact ⟨same ▸ given, domain, ⟨domainMem, verified⟩, same⟩

theorem find_identified_iff {members : List GovernanceMember} {email : String}
    {member : GovernanceMember} :
    (members.find? fun candidate =>
        normalizeEmail lowerCase candidate.email = email ∧ candidate.active) = some member ↔
      normalizeEmail lowerCase member.email = email ∧ member.active = true ∧
        ∃ before after, members = before ++ member :: after ∧
          ∀ earlier ∈ before, earlier.active = true →
            normalizeEmail lowerCase earlier.email ≠ email := by
  rw [List.find?_eq_some_iff_append]
  simp only [decide_eq_true_eq, Bool.not_eq_true', decide_eq_false_iff_not, not_and, and_assoc]
  refine and_congr_right fun _ => and_congr_right fun _ => ?_
  refine exists_congr fun before => ?_
  constructor
  · rintro ⟨after, split, earliest⟩
    exact ⟨after, split, fun earlier earlierMem active same =>
      earliest earlier earlierMem same active⟩
  · rintro ⟨after, split, earliest⟩
    exact ⟨after, split, fun earlier earlierMem same active =>
      earliest earlier earlierMem active same⟩

/-- A login succeeds for an active member with a verified domain, and writes this. -/
theorem applyAuthenticatedIdentity_eq_ok_iff {identity : AuthenticatedIdentity}
    {now identifier : String} :
    applyAuthenticatedIdentity lowerCase current identity now identifier = .ok proposed ↔
      identityEmailIsAllowed lowerCase current (normalizeEmail lowerCase identity.email) = true ∧
      ∃ member, (current.members.find? fun candidate =>
          normalizeEmail lowerCase candidate.email = normalizeEmail lowerCase identity.email ∧
            candidate.active) = some member ∧
        proposed = audit
          { current with
            currentMemberId := member.id
            members := current.members.map fun candidate =>
              if candidate.id = member.id then candidate.authenticated identity
                ((current.teams.filter fun team =>
                  JoinedBy lowerCase identity.groups team).map GovernanceTeam.id) now
              else candidate }
          member.id "sso.login" (identity.protocol.upperCase ++ " login for " ++
            normalizeEmail lowerCase identity.email ++ ".") now identifier := by
  have teams : (current.teams.filter fun team => identity.groups.any fun group =>
        lowerCase group = lowerCase team.name ∨ group = team.externalId) =
      current.teams.filter fun team => JoinedBy lowerCase identity.groups team := by
    apply List.filter_congr
    intro team _
    rw [Bool.eq_iff_iff, joinedBy_iff, decide_eq_true_eq]
  simp only [applyAuthenticatedIdentity, teams]
  cases allowed : identityEmailIsAllowed lowerCase current
      (normalizeEmail lowerCase identity.email) with
  | false => simp only [Bool.not_false, ↓reduceIte, reduceCtorEq, false_and]
  | true =>
      simp only [Bool.not_true, Bool.false_eq_true, ↓reduceIte, true_and]
      cases found : current.members.find? fun candidate =>
          normalizeEmail lowerCase candidate.email = normalizeEmail lowerCase identity.email ∧
            candidate.active with
      | none => simp only [reduceCtorEq, false_and, exists_false]
      | some member =>
          simp only [Except.ok.injEq, Option.some.injEq, exists_eq_left']
          exact eq_comm

theorem isLogin_iff : IsLogin lowerCase current proposed ↔
    SameSettings current proposed ∧ RecordsLogin lowerCase current proposed := by
  constructor
  · rintro ⟨identity, now, uuid, isUuid, login⟩
    rcases applyAuthenticatedIdentity_eq_ok_iff.mp login with ⟨allowed, member, found, rfl⟩
    rcases find_identified_iff.mp found with ⟨email, active, identified⟩
    refine ⟨⟨rfl, rfl, rfl, rfl, rfl, rfl⟩, identity, member, ⟨"audit-" ++ uuid,
      now.toISOString, member.id, "sso.login", _⟩, email, active, identified,
      identityEmailIsAllowed_iff.mp allowed, rfl, ?_, ⟨now, rfl⟩, ⟨uuid, isUuid, rfl⟩, rfl, rfl,
      rfl, rfl⟩
    exact forall₂_signedIn_iff.mpr rfl
  · rintro ⟨settings, identity, member, event, record⟩
    rcases record.timestamp with ⟨now, timestamp⟩
    rcases record.id with ⟨uuid, isUuid, identifier⟩
    refine ⟨identity, now, uuid, isUuid, applyAuthenticatedIdentity_eq_ok_iff.mpr
      ⟨identityEmailIsAllowed_iff.mpr record.domain, member,
        find_identified_iff.mpr ⟨record.email, record.active, record.identified⟩, ?_⟩⟩
    have logged : event = ⟨"audit-" ++ uuid, now.toISOString, member.id, "sso.login",
        identity.protocol.upperCase ++ " login for " ++
          normalizeEmail lowerCase identity.email ++ "."⟩ := by
      rw [← identifier, ← timestamp, ← record.actorId, ← record.action, ← record.detail]
    have members := forall₂_signedIn_iff.mp record.members
    rw [timestamp] at members
    have log := record.audit
    rw [logged] at log
    rcases proposed with ⟨currentMemberId, _, teams, grants, organization, sso, scim, policy, _⟩
    simp only [audit, GovernanceConfig.mk.injEq]
    exact ⟨record.currentMemberId, members, settings.teams.symm, settings.resourceGrants.symm,
      settings.organization.symm, settings.sso.symm, settings.scim.symm, settings.policy.symm,
      log⟩

end Brunomnia.Governance
