import Brunomnia.Scim.Writes

/-!
# What a write keeps of the governance

Ids and e-mails are unique, members and teams list each other, and one owner is active. A user
that is stored keeps this unless its e-mail belongs to someone else, and a group keeps it always.
-/

namespace Brunomnia.Scim

open Library

structure Consistent (governance : GovernanceConfig) : Prop where
  memberIds : (governance.members.map GovernanceMember.id).Nodup
  teamIds : (governance.teams.map GovernanceTeam.id).Nodup
  emails : (governance.members.map fun member => toAsciiLowercase member.email).Nodup
  symmetric : ∀ member ∈ governance.members, ∀ team ∈ governance.teams,
    member.id ∈ team.memberIds ↔ team.id ∈ member.teamIds
  owner : ∃ member ∈ governance.members, isActiveOwner member = true

/-- The ids that a request may draw are new: no record has them or refers to them. -/
structure Draw.Fresh (draw : Draw) (governance : GovernanceConfig) : Prop where
  member : ∀ member ∈ governance.members, member.id ≠ "scim-user-" ++ draw.uuid
  memberListed : ∀ team ∈ governance.teams, "scim-user-" ++ draw.uuid ∉ team.memberIds
  team : ∀ team ∈ governance.teams, team.id ≠ "scim-team-" ++ draw.uuid
  teamListed : ∀ member ∈ governance.members, "scim-team-" ++ draw.uuid ∉ member.teamIds

variable {draw : Draw} {governance : GovernanceConfig} {value : Json} {existingId : Option String}

/-! ## Users -/

section Users

/-- A value that stores a user. -/
structure AcceptsUser (governance : GovernanceConfig) (value : Json)
    (existingId : Option String) : Prop where
  email : validEmail (bodyEmail value) = true
  managed : ∀ current ∈ matchedMember governance.members value existingId,
    ¬ (current.source = "manual" ∧ existingId ≠ none)
  owner : ∀ current ∈ matchedMember governance.members value existingId,
    ¬ (current.role = "owner" ∧ current.active = true ∧ bodyActive value = false ∧
      activeOwnerCount governance.members = 1)

/-- The user that an accepted value stores. -/
def provisionedMember (draw : Draw) (governance : GovernanceConfig) (value : Json)
    (existingId : Option String) : GovernanceMember :=
  let email := bodyEmail value
  let externalId := bodyString value "externalId"
  let name := bodyString value "displayName"
  let active := bodyActive value
  match matchedMember governance.members value existingId with
  | some current =>
      { current with
        email
        name := if name = "" then current.name else name
        active
        source := "scim"
        externalId }
  | none =>
      { id := "scim-user-" ++ draw.uuid
        name := if name = "" then email else name
        email
        role := "editor"
        active
        source := "scim"
        externalId
        teamIds := []
        lastAuthenticatedAt := "" }

theorem scimError_isError {status : StatusCode} {detail : String} (code : 400 ≤ status.number) :
    (scimError status detail).IsError := code

/-- A value is stored or refused. -/
theorem userFromBody_cases (draw : Draw) (governance : GovernanceConfig) (value : Json)
    (existingId : Option String) :
    (AcceptsUser governance value existingId ∧
      userFromBody draw governance value existingId =
        .ok (provisionedMember draw governance value existingId)) ∨
    (¬ AcceptsUser governance value existingId ∧
      ∃ refusal, refusal.IsError ∧ userFromBody draw governance value existingId =
        .error refusal) := by
  unfold userFromBody
  by_cases invalid : validEmail (bodyEmail value) = false
  · refine Or.inr ⟨?_, _, scimError_isError (by decide), if_pos invalid⟩
    intro accepts
    rw [accepts.email] at invalid
    cases invalid
  · have valid : validEmail (bodyEmail value) = true := by simpa using invalid
    rw [if_neg invalid]
    cases matched : matchedMember governance.members value existingId with
    | none =>
        refine Or.inl ⟨⟨valid, ?_, ?_⟩, ?_⟩
        · simp [matched]
        · simp [matched]
        · simp only [provisionedMember, matched]
    | some current =>
        dsimp only
        split
        case isTrue manual =>
          refine Or.inr ⟨?_, _, scimError_isError (by decide), rfl⟩
          intro accepts
          exact accepts.managed current matched manual
        case isFalse notManual =>
          split
          case isTrue lastOwner =>
            refine Or.inr ⟨?_, _, scimError_isError (by decide), rfl⟩
            intro accepts
            exact accepts.owner current matched lastOwner
          case isFalse notLastOwner =>
            refine Or.inl ⟨⟨valid, ?_, ?_⟩, ?_⟩
            · simpa [matched] using notManual
            · simpa [matched] using notLastOwner
            · simp only [provisionedMember, matched]

@[simp]
theorem provisionedMember_email :
    (provisionedMember draw governance value existingId).email = bodyEmail value := by
  unfold provisionedMember
  cases matchedMember governance.members value existingId <;> rfl

@[simp]
theorem provisionedMember_source :
    (provisionedMember draw governance value existingId).source = "scim" := by
  unfold provisionedMember
  cases matchedMember governance.members value existingId <;> rfl

theorem provisionedMember_of_matched (draw : Draw) {current : GovernanceMember}
    (matched : matchedMember governance.members value existingId = some current) :
    (provisionedMember draw governance value existingId).id = current.id ∧
      (provisionedMember draw governance value existingId).role = current.role ∧
      (provisionedMember draw governance value existingId).teamIds = current.teamIds ∧
      (provisionedMember draw governance value existingId).active = bodyActive value := by
  simp only [provisionedMember, matched, and_self]

theorem provisionedMember_of_none (draw : Draw)
    (unmatched : matchedMember governance.members value existingId = none) :
    (provisionedMember draw governance value existingId).id = "scim-user-" ++ draw.uuid ∧
      (provisionedMember draw governance value existingId).teamIds = [] := by
  simp only [provisionedMember, unmatched, and_self]

theorem matchedMember_mem {current : GovernanceMember}
    (matched : matchedMember governance.members value existingId = some current) :
    current ∈ governance.members := by
  unfold matchedMember at matched
  rcases Option.or_eq_some_iff.mp matched with byId | ⟨_, byEmail⟩
  · rcases Option.or_eq_some_iff.mp byId with byPath | ⟨_, byExternal⟩
    · rcases Option.bind_eq_some_iff.mp byPath with ⟨id, _, found⟩
      exact List.mem_of_find?_eq_some found
    · split at byExternal
      case isTrue => cases byExternal
      case isFalse => exact List.mem_of_find?_eq_some byExternal
  · exact List.mem_of_find?_eq_some byEmail

theorem email_new_of_matchedMember_none
    (unmatched : matchedMember governance.members value existingId = none)
    {member : GovernanceMember} (mem : member ∈ governance.members) :
    toAsciiLowercase member.email ≠ toAsciiLowercase (bodyEmail value) := by
  unfold matchedMember at unmatched
  have byEmail := (Option.or_eq_none_iff.mp unmatched).2
  simpa [eqIgnoreAsciiCase] using List.find?_eq_none.mp byEmail member mem

/-- Next to the only owner that a value may not deactivate there is another one. -/
theorem exists_other_owner (memberIds : (governance.members.map GovernanceMember.id).Nodup)
    {current : GovernanceMember} (mem : current ∈ governance.members)
    (isOwner : isActiveOwner current = true) (several : activeOwnerCount governance.members ≠ 1) :
    ∃ other ∈ governance.members, isActiveOwner other = true ∧ other.id ≠ current.id := by
  have ownerMem : current ∈ governance.members.filter isActiveOwner :=
    List.mem_filter.mpr ⟨mem, isOwner⟩
  have ownerIds : ((governance.members.filter isActiveOwner).map GovernanceMember.id).Nodup :=
    memberIds.sublist (List.filter_sublist.map _)
  have perm := filter_ne_perm GovernanceMember.id ownerIds ownerMem
  have count := perm.length_eq
  rw [List.length_cons] at count
  cases others : (governance.members.filter isActiveOwner).filter fun candidate =>
      decide (candidate.id ≠ current.id) with
  | nil =>
      rw [others] at count
      exact absurd count several
  | cons other rest =>
      have otherMem := List.mem_filter.mp (others ▸ List.mem_cons_self (a := other) (l := rest))
      have listed := List.mem_filter.mp otherMem.1
      exact ⟨other, listed.1, listed.2, by simpa using otherMem.2⟩

/-- No one but the member that is found has the e-mail of the value. -/
def EmailFree (governance : GovernanceConfig) (value : Json) (existingId : Option String) :
    Prop :=
  ∀ current ∈ matchedMember governance.members value existingId,
    ∀ other ∈ governance.members, other.id ≠ current.id →
      toAsciiLowercase other.email ≠ toAsciiLowercase (bodyEmail value)

theorem symmetric_saveUser (consistent : Consistent governance) (fresh : draw.Fresh governance) :
    ∀ member ∈ (saveUser governance
        (provisionedMember draw governance value existingId)).members,
      ∀ team ∈ governance.teams, member.id ∈ team.memberIds ↔ team.id ∈ member.teamIds := by
  intro member mem team teamMem
  rcases (mem_upsertBy consistent.memberIds).mp mem with rfl | ⟨kept, _⟩
  · cases matched : matchedMember governance.members value existingId with
    | none =>
        rcases provisionedMember_of_none draw matched with ⟨id, teamIds⟩
        rw [id, teamIds]
        simpa using fresh.memberListed team teamMem
    | some current =>
        rcases provisionedMember_of_matched draw matched with ⟨id, _, teamIds, _⟩
        rw [id, teamIds]
        exact consistent.symmetric current (matchedMember_mem matched) team teamMem
  · exact consistent.symmetric member kept team teamMem

theorem owner_saveUser (consistent : Consistent governance) (fresh : draw.Fresh governance)
    (accepts : AcceptsUser governance value existingId) :
    ∃ member ∈ (saveUser governance
      (provisionedMember draw governance value existingId)).members,
        isActiveOwner member = true := by
  rcases consistent.owner with ⟨owner, ownerMem, isOwner⟩
  cases matched : matchedMember governance.members value existingId with
  | none =>
      rcases provisionedMember_of_none draw matched with ⟨id, _⟩
      refine ⟨owner, (mem_upsertBy consistent.memberIds).mpr (Or.inr ⟨ownerMem, ?_⟩), isOwner⟩
      rw [id]
      exact fresh.member owner ownerMem
  | some current =>
      rcases provisionedMember_of_matched draw matched with ⟨id, role, _, active⟩
      have stays {other : GovernanceMember} (otherMem : other ∈ governance.members)
          (differs : other.id ≠ current.id) : other ∈ (saveUser governance
            (provisionedMember draw governance value existingId)).members := by
        apply (mem_upsertBy consistent.memberIds).mpr
        exact Or.inr ⟨otherMem, id ▸ differs⟩
      by_cases same : owner.id = current.id
      · have isCurrent := List.inj_on_of_nodup_map consistent.memberIds ownerMem
          (matchedMember_mem matched) same
        subst isCurrent
        have roleOwner : owner.role = "owner" := by simpa [isActiveOwner] using
          (Bool.and_eq_true_iff.mp isOwner).2
        have ownerActive : owner.active = true := (Bool.and_eq_true_iff.mp isOwner).1
        by_cases staysActive : bodyActive value = true
        · refine ⟨_, (mem_upsertBy consistent.memberIds).mpr (Or.inl rfl), ?_⟩
          simp [isActiveOwner, role, active, roleOwner, staysActive]
        · have deactivated : bodyActive value = false := by simpa using staysActive
          have several : activeOwnerCount governance.members ≠ 1 := by
            intro single
            exact accepts.owner owner matched ⟨roleOwner, ownerActive, deactivated, single⟩
          rcases exists_other_owner consistent.memberIds ownerMem isOwner several with
            ⟨other, otherMem, otherOwner, differs⟩
          exact ⟨other, stays otherMem differs, otherOwner⟩
      · exact ⟨owner, stays ownerMem same, isOwner⟩

/-- A stored user keeps the governance consistent exactly if its e-mail is free. -/
theorem consistent_saveUser_iff (consistent : Consistent governance)
    (fresh : draw.Fresh governance) (accepts : AcceptsUser governance value existingId) :
    Consistent (saveUser governance (provisionedMember draw governance value existingId)) ↔
      EmailFree governance value existingId := by
  have emails : ((saveUser governance (provisionedMember draw governance value
      existingId)).members.map fun member => toAsciiLowercase member.email).Nodup ↔
      ∀ other ∈ governance.members,
        other.id ≠ (provisionedMember draw governance value existingId).id →
          toAsciiLowercase other.email ≠
            toAsciiLowercase (provisionedMember draw governance value existingId).email :=
    nodup_map_upsertBy_iff consistent.memberIds consistent.emails
  have free : EmailFree governance value existingId ↔
      ∀ other ∈ governance.members,
        other.id ≠ (provisionedMember draw governance value existingId).id →
          toAsciiLowercase other.email ≠
            toAsciiLowercase (provisionedMember draw governance value existingId).email := by
    rw [provisionedMember_email]
    cases matched : matchedMember governance.members value existingId with
    | none =>
        refine ⟨fun _ other mem _ => email_new_of_matchedMember_none matched mem, ?_⟩
        intro _ current found
        rw [matched] at found
        cases found
    | some current =>
        rw [(provisionedMember_of_matched draw matched).1]
        simp [EmailFree, matched]
  rw [free, ← emails]
  constructor
  · intro after
    exact after.emails
  · intro unique
    exact ⟨nodup_ident_upsertBy consistent.memberIds, consistent.teamIds, unique,
      symmetric_saveUser consistent fresh, owner_saveUser consistent fresh accepts⟩

/-- A member that was there is there unless it is the one that was found. -/
theorem mem_saveUser_iff (consistent : Consistent governance) (fresh : draw.Fresh governance)
    {member : GovernanceMember} (mem : member ∈ governance.members)
    (manual : member.source = "manual") :
    member ∈ (saveUser governance (provisionedMember draw governance value existingId)).members ↔
      matchedMember governance.members value existingId ≠ some member := by
  have differs : member ≠ provisionedMember draw governance value existingId := by
    intro same
    have source := congrArg GovernanceMember.source same
    rw [manual, provisionedMember_source] at source
    exact absurd source (by decide)
  have stays : member ∈ (saveUser governance
      (provisionedMember draw governance value existingId)).members ↔
        member.id ≠ (provisionedMember draw governance value existingId).id := by
    apply (mem_upsertBy consistent.memberIds).trans
    simp [differs, mem]
  rw [stays]
  cases matched : matchedMember governance.members value existingId with
  | none =>
      rw [(provisionedMember_of_none draw matched).1]
      simpa using fresh.member member mem
  | some current =>
      rw [(provisionedMember_of_matched draw matched).1]
      have injective := List.inj_on_of_nodup_map consistent.memberIds mem
        (matchedMember_mem matched)
      constructor
      · rintro apart same
        exact apart (by rw [Option.some.inj same])
      · intro other sameId
        exact other (by rw [injective sameId])

end Users

/-! ## Groups -/

section Groups

variable {teamId : String} {memberIds : List String} {member : GovernanceMember}

@[simp]
theorem syncTeamIds_id : (syncTeamIds teamId memberIds member).id = member.id := by
  unfold syncTeamIds
  split
  · split <;> rfl
  · rfl

@[simp]
theorem syncTeamIds_email : (syncTeamIds teamId memberIds member).email = member.email := by
  unfold syncTeamIds
  split
  · split <;> rfl
  · rfl

@[simp]
theorem isActiveOwner_syncTeamIds :
    isActiveOwner (syncTeamIds teamId memberIds member) = isActiveOwner member := by
  unfold syncTeamIds
  split
  · split <;> rfl
  · rfl

theorem mem_syncTeamIds : teamId ∈ (syncTeamIds teamId memberIds member).teamIds ↔
    member.id ∈ memberIds := by
  unfold syncTeamIds
  by_cases listed : member.id ∈ memberIds
  · by_cases present : teamId ∈ member.teamIds
    · simp [listed, present]
    · simp [listed, present]
  · simp [listed]

theorem mem_syncTeamIds_of_ne {other : String} (differs : other ≠ teamId) :
    other ∈ (syncTeamIds teamId memberIds member).teamIds ↔ other ∈ member.teamIds := by
  unfold syncTeamIds
  by_cases listed : member.id ∈ memberIds
  · by_cases present : teamId ∈ member.teamIds
    · simp [listed, present]
    · simp [listed, present, differs]
  · simp [listed, differs]

theorem syncTeamIds_eq_self_iff : syncTeamIds teamId memberIds member = member ↔
    (member.id ∈ memberIds ↔ teamId ∈ member.teamIds) := by
  constructor
  · intro same
    have listed : teamId ∈ (syncTeamIds teamId memberIds member).teamIds ↔
      member.id ∈ memberIds := mem_syncTeamIds
    rw [← listed, same]
  · intro agrees
    unfold syncTeamIds
    by_cases listed : member.id ∈ memberIds
    · rw [if_pos listed, if_pos (agrees.mp listed)]
    · have kept : member.teamIds.filter (fun id => decide (id ≠ teamId)) = member.teamIds := by
        apply List.filter_eq_self.mpr
        intro id mem
        apply decide_eq_true
        rintro rfl
        exact listed (agrees.mpr mem)
      rw [if_neg listed, kept]

/-- Members that are synchronized with a team, next to teams that are otherwise as before. -/
theorem consistent_synced (consistent : Consistent governance) {teams : List GovernanceTeam}
    (teamIds : (teams.map GovernanceTeam.id).Nodup)
    (others : ∀ team ∈ teams, team.id ≠ teamId → team ∈ governance.teams)
    (own : ∀ team ∈ teams, team.id = teamId → team.memberIds = memberIds) :
    Consistent { governance with
      members := governance.members.map (syncTeamIds teamId memberIds)
      teams := teams } where
  memberIds := by
    have ids : (governance.members.map (syncTeamIds teamId memberIds)).map GovernanceMember.id =
        governance.members.map GovernanceMember.id := by simp [Function.comp_def]
    rw [ids]
    exact consistent.memberIds
  teamIds := teamIds
  emails := by
    have emails : (governance.members.map (syncTeamIds teamId memberIds)).map
        (fun member => toAsciiLowercase member.email) =
          governance.members.map fun member => toAsciiLowercase member.email := by
      simp [Function.comp_def]
    rw [emails]
    exact consistent.emails
  symmetric := by
    intro synced mem team teamMem
    rcases List.mem_map.mp mem with ⟨member, memberMem, rfl⟩
    rw [syncTeamIds_id]
    by_cases isOwn : team.id = teamId
    · rw [own team teamMem isOwn, isOwn, mem_syncTeamIds]
    · rw [mem_syncTeamIds_of_ne isOwn]
      exact consistent.symmetric member memberMem team (others team teamMem isOwn)
  owner := by
    rcases consistent.owner with ⟨owner, ownerMem, isOwner⟩
    refine ⟨_, List.mem_map_of_mem ownerMem, ?_⟩
    rw [isActiveOwner_syncTeamIds, isOwner]

theorem consistent_saveTeam (consistent : Consistent governance) (team : GovernanceTeam) :
    Consistent (saveTeam governance team) := by
  apply consistent_synced consistent
  · exact nodup_ident_upsertBy consistent.teamIds
  · intro other mem differs
    rcases (mem_upsertBy consistent.teamIds).mp mem with rfl | ⟨kept, _⟩
    · exact absurd rfl differs
    · exact kept
  · intro other mem same
    rcases (mem_upsertBy consistent.teamIds).mp mem with rfl | ⟨_, differs⟩
    · rfl
    · exact absurd same differs

theorem consistent_deleteTeam (consistent : Consistent governance) (team : GovernanceTeam) :
    Consistent (deleteTeam governance team) := by
  apply consistent_synced consistent
  · exact consistent.teamIds.sublist (List.filter_sublist.map _)
  · intro other mem _
    exact (List.mem_filter.mp mem).1
  · intro other mem same
    exact absurd same (by simpa using (List.mem_filter.mp mem).2)

theorem mem_synced_iff (consistent : Consistent governance) (mem : member ∈ governance.members) :
    member ∈ governance.members.map (syncTeamIds teamId memberIds) ↔
      (member.id ∈ memberIds ↔ teamId ∈ member.teamIds) := by
  rw [← syncTeamIds_eq_self_iff]
  constructor
  · intro present
    rcases List.mem_map.mp present with ⟨other, otherMem, synced⟩
    have sameId : other.id = member.id := by rw [← synced, syncTeamIds_id]
    have same := List.inj_on_of_nodup_map consistent.memberIds otherMem mem sameId
    rw [same] at synced
    exact synced
  · intro unchanged
    rw [← unchanged]
    exact List.mem_map_of_mem mem

/-- A value that stores a group. -/
structure AcceptsGroup (governance : GovernanceConfig) (value : Json)
    (existingId : Option String) : Prop where
  name : ¬ (bodyString value "displayName" = "" ∨
    500 < (bodyString value "displayName").utf8ByteSize)
  managed : ∀ current ∈ matchedTeam governance.teams value existingId,
    ¬ (current.source = "manual" ∧ existingId ≠ none)

/-- The id of the team that an accepted value stores. -/
def provisionedTeamId (draw : Draw) (governance : GovernanceConfig) (value : Json)
    (existingId : Option String) : String :=
  ((matchedTeam governance.teams value existingId).map GovernanceTeam.id).getD
    ("scim-team-" ++ draw.uuid)

/-- A group is stored or refused. -/
theorem upsertGroup_cases (draw : Draw) (governance : GovernanceConfig) (value : Json)
    (existingId : Option String) :
    (AcceptsGroup governance value existingId ∧
      ∃ team, upsertGroup draw governance value existingId = .ok (saveTeam governance team, team) ∧
        team.id = provisionedTeamId draw governance value existingId ∧
        team.memberIds = listedMemberIds draw governance value) ∨
    (¬ AcceptsGroup governance value existingId ∧
      ∃ refusal, refusal.IsError ∧ upsertGroup draw governance value existingId =
        .error refusal) := by
  unfold upsertGroup teamFromBody provisionedTeamId
  by_cases noName : bodyString value "displayName" = "" ∨
      500 < (bodyString value "displayName").utf8ByteSize
  · refine Or.inr ⟨fun accepts => accepts.name noName,
      scimError .badRequest "SCIM groups require a displayName of at most 500 bytes.",
      scimError_isError (by decide), ?_⟩
    simp only [if_pos noName]
    rfl
  · simp only [if_neg noName]
    cases matched : matchedTeam governance.teams value existingId with
    | none => exact Or.inl ⟨⟨noName, by simp [matched]⟩, _, rfl, rfl, rfl⟩
    | some current =>
        dsimp only
        split
        case isTrue manual =>
          refine Or.inr ⟨?_, _, scimError_isError (by decide), rfl⟩
          intro accepts
          exact accepts.managed current matched manual
        case isFalse notManual =>
          refine Or.inl ⟨⟨noName, ?_⟩, _, rfl, rfl, rfl⟩
          simpa [matched] using notManual

theorem mem_listedMemberIds (draw : Draw) (mem : member ∈ governance.members) :
    member.id ∈ listedMemberIds draw governance value ↔
      member.id ∈ (memberValues (value.list "members")).take 10000 := by
  have present : (governance.members.any fun other => decide (other.id = member.id)) = true :=
    List.any_eq_true.mpr ⟨member, mem, decide_eq_true rfl⟩
  simp only [listedMemberIds, groupMemberIds, List.mem_filter, present, and_true,
    (draw.hashOrder_perm _).mem_iff, List.mem_dedup]

end Groups

end Brunomnia.Scim
