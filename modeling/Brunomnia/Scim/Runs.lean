import Brunomnia.Library.Runs
import Brunomnia.Scim.Consistency

/-!
# Runs of the connector

Along a run the governance stays consistent, no request panics, a refused request changes
nothing, and a manually managed member changes only when a client posts its e-mail. This is so
exactly if every request of the run meets a condition in the state that it finds.
-/

namespace Brunomnia.Scim

open Library

/-- A request and what it draws. -/
abbrev Step := Draw × Request

/-- The governance after a request; one that panics leaves it as it is. -/
def scimStep (governance : GovernanceConfig) (step : Step) : GovernanceConfig :=
  ((handleScim step.1 governance step.2).map Prod.fst).getD governance

/-- The request is a POST to Users with the e-mail of the member. -/
def PostsEmail (request : Request) (member : GovernanceMember) : Prop :=
  request.method = .post ∧ segments request.path = ["Users"] ∧
    ∃ value ∈ request.body, eqIgnoreAsciiCase member.email (bodyEmail value) = true

/-- What a request must keep. -/
def StepKeeps (governance : GovernanceConfig) (step : Step) : Prop :=
  ∃ after reply, handleScim step.1 governance step.2 = some (after, reply) ∧
    Consistent after ∧
    (reply.IsError → after.members = governance.members ∧ after.teams = governance.teams) ∧
    ∀ member ∈ governance.members, member.source = "manual" →
      member ∈ after.members ∨ PostsEmail step.2 member

/-- A user that is stored takes no one's e-mail, and is manually managed only if it is the one
with the e-mail. -/
structure UserMeets (governance : GovernanceConfig) (value : Json)
    (existingId : Option String) : Prop where
  free : EmailFree governance value existingId
  manual : ∀ current ∈ matchedMember governance.members value existingId,
    current.source = "manual" → eqIgnoreAsciiCase current.email (bodyEmail value) = true

/-- A group that is stored lists the manually managed members that its team had. -/
def GroupMeets (governance : GovernanceConfig) (value : Json) (existingId : Option String) :
    Prop :=
  ∀ member ∈ governance.members, member.source = "manual" →
    (member.id ∈ (memberValues (value.list "members")).take 10000 ↔
      ∃ current ∈ matchedTeam governance.teams value existingId, current.id ∈ member.teamIds)

def WriteMeets (governance : GovernanceConfig) : Write → Prop
  | .nothing => True
  | .user value existingId =>
      AcceptsUser governance value existingId → UserMeets governance value existingId
  | .group value existingId =>
      AcceptsGroup governance value existingId → GroupMeets governance value existingId
  | .patchGroup current operations id =>
      membersStayArray true operations = true ∧
        (AcceptsGroup governance (patchedGroup current operations) (some id) →
          GroupMeets governance (patchedGroup current operations) (some id))
  | .deleteGroup team =>
      ∀ member ∈ governance.members, member.source = "manual" → team.id ∉ member.teamIds

/-- The condition on a request in the state that it finds. -/
def RequestMeets (governance : GovernanceConfig) (step : Step) : Prop :=
  WriteMeets governance (requestedWrite governance step.2)

variable {draw : Draw} {governance : GovernanceConfig} {request : Request}

/-! ## One request -/

theorem stepKeeps_of_handled {after : GovernanceConfig} {reply : Reply}
    (handled : handleScim draw governance request = some (after, reply)) :
    StepKeeps governance (draw, request) ↔
      Consistent after ∧
      (reply.IsError → after.members = governance.members ∧ after.teams = governance.teams) ∧
      ∀ member ∈ governance.members, member.source = "manual" →
        member ∈ after.members ∨ PostsEmail request member := by
  constructor
  · rintro ⟨other, otherReply, otherHandled, keeps⟩
    rw [handled] at otherHandled
    cases otherHandled
    exact keeps
  · intro keeps
    exact ⟨after, reply, handled, keeps⟩

theorem stepKeeps_of_unchanged (consistent : Consistent governance) {reply : Reply}
    (handled : handleScim draw governance request = some (governance, reply)) :
    StepKeeps governance (draw, request) := by
  apply (stepKeeps_of_handled handled).mpr
  exact ⟨consistent, fun _ => ⟨rfl, rfl⟩, fun member mem _ => Or.inl mem⟩

theorem stepKeeps_user_iff (consistent : Consistent governance) (fresh : draw.Fresh governance)
    {value : Json} {existingId : Option String}
    (handles : Handles draw governance request (handleScim draw governance request)
      (.user value existingId)) :
    StepKeeps governance (draw, request) ↔
      (AcceptsUser governance value existingId → UserMeets governance value existingId) := by
  rcases handles with ⟨reply, accepted, handled, posted⟩
  rcases userFromBody_cases draw governance value existingId with
    ⟨accepts, stored⟩ | ⟨refuses, refusal, _, refused⟩
  · simp only [provisionUser, stored] at handled
    rw [stepKeeps_of_handled handled, consistent_saveUser_iff consistent fresh accepts]
    have notError := accepted (saveUser governance
      (provisionedMember draw governance value existingId))
      (provisionedMember draw governance value existingId)
    constructor
    · rintro ⟨free, _, manual⟩ _
      refine ⟨free, ?_⟩
      intro current matched isManual
      have mem := matchedMember_mem matched
      rcases manual current mem isManual with stays | ⟨_, _, other, body, sameEmail⟩
      · exact absurd matched ((mem_saveUser_iff consistent fresh mem isManual).mp stays)
      · have isNone : existingId = none := by
          by_contra some
          exact accepts.managed current matched ⟨isManual, some⟩
        rw [(posted.mp isNone).2.2] at body
        cases body
        exact sameEmail
    · intro meets
      refine ⟨(meets accepts).free, fun isError => absurd isError notError, ?_⟩
      intro member mem isManual
      by_cases matched : matchedMember governance.members value existingId = some member
      · have isNone : existingId = none := by
          by_contra some
          exact accepts.managed member matched ⟨isManual, some⟩
        rcases posted.mp isNone with ⟨post, path, body⟩
        exact Or.inr ⟨post, path, value, body, (meets accepts).manual member matched isManual⟩
      · exact Or.inl ((mem_saveUser_iff consistent fresh mem isManual).mpr matched)
  · simp only [provisionUser, refused] at handled
    have keeps := stepKeeps_of_unchanged consistent handled
    exact ⟨fun _ accepts => absurd accepts refuses, fun _ => keeps⟩

theorem not_postsEmail_of_group {value : Json} {existingId : Option String}
    (write : requestedWrite governance request = .group value existingId)
    (member : GovernanceMember) : ¬ PostsEmail request member := by
  rintro ⟨post, path, other, body, _⟩
  have body : request.body = some other := body
  simp [requestedWrite, path, post, body] at write

theorem not_postsEmail_of_patchGroup {current : GovernanceTeam} {operations : List Json}
    {id : String} (write : requestedWrite governance request = .patchGroup current operations id)
    (member : GovernanceMember) : ¬ PostsEmail request member := by
  rintro ⟨post, path, other, body, _⟩
  have body : request.body = some other := body
  simp [requestedWrite, path, post, body] at write

theorem not_postsEmail_of_deleteGroup {team : GovernanceTeam}
    (write : requestedWrite governance request = .deleteGroup team)
    (member : GovernanceMember) : ¬ PostsEmail request member := by
  rintro ⟨post, path, other, body, _⟩
  have body : request.body = some other := body
  simp [requestedWrite, path, post, body] at write

theorem provisionedTeamId_mem_iff (fresh : draw.Fresh governance) {value : Json}
    {existingId : Option String} {member : GovernanceMember} (mem : member ∈ governance.members) :
    provisionedTeamId draw governance value existingId ∈ member.teamIds ↔
      ∃ current ∈ matchedTeam governance.teams value existingId,
        current.id ∈ member.teamIds := by
  unfold provisionedTeamId
  cases matchedTeam governance.teams value existingId with
  | none => simpa using fresh.teamListed member mem
  | some current => simp

theorem stepKeeps_group_iff (consistent : Consistent governance) (fresh : draw.Fresh governance)
    {value : Json} {existingId : Option String}
    (handles : Handles draw governance request (handleScim draw governance request)
      (.group value existingId))
    (notPosted : ∀ member, ¬ PostsEmail request member) :
    StepKeeps governance (draw, request) ↔
      (AcceptsGroup governance value existingId → GroupMeets governance value existingId) := by
  rcases handles with ⟨reply, accepted, handled⟩
  rcases upsertGroup_cases draw governance value existingId with
    ⟨accepts, team, stored, teamId, memberIds⟩ | ⟨refuses, refusal, _, refused⟩
  · simp only [provisionGroup, stored] at handled
    have notError := accepted (saveTeam governance team) team
    have stays {member : GovernanceMember} (mem : member ∈ governance.members) :
        member ∈ (saveTeam governance team).members ↔
          (member.id ∈ (memberValues (value.list "members")).take 10000 ↔
            ∃ current ∈ matchedTeam governance.teams value existingId,
              current.id ∈ member.teamIds) := by
      rw [← mem_listedMemberIds draw mem, ← memberIds,
        ← provisionedTeamId_mem_iff fresh mem, ← teamId]
      exact mem_synced_iff consistent mem
    rw [stepKeeps_of_handled handled]
    constructor
    · rintro ⟨_, _, manual⟩ _ member mem isManual
      rcases manual member mem isManual with present | posts
      · exact (stays mem).mp present
      · exact absurd posts (notPosted member)
    · intro meets
      refine ⟨consistent_saveTeam consistent team, fun isError => absurd isError notError, ?_⟩
      intro member mem isManual
      exact Or.inl ((stays mem).mpr (meets accepts member mem isManual))
  · simp only [provisionGroup, refused] at handled
    have keeps := stepKeeps_of_unchanged consistent handled
    exact ⟨fun _ accepts => absurd accepts refuses, fun _ => keeps⟩

theorem stepKeeps_deleteGroup_iff (consistent : Consistent governance) {team : GovernanceTeam}
    (handles : Handles draw governance request (handleScim draw governance request)
      (.deleteGroup team))
    (notPosted : ∀ member, ¬ PostsEmail request member) :
    StepKeeps governance (draw, request) ↔
      ∀ member ∈ governance.members, member.source = "manual" → team.id ∉ member.teamIds := by
  rcases handles with ⟨_, reply, notError, handled⟩
  have stays {member : GovernanceMember} (mem : member ∈ governance.members) :
      member ∈ (deleteTeam governance team).members ↔ team.id ∉ member.teamIds := by
    apply (mem_synced_iff consistent mem).trans
    simp
  rw [stepKeeps_of_handled handled]
  constructor
  · rintro ⟨_, _, manual⟩ member mem isManual
    rcases manual member mem isManual with present | posts
    · exact (stays mem).mp present
    · exact absurd posts (notPosted member)
  · intro meets
    refine ⟨consistent_deleteTeam consistent team, fun isError => absurd isError notError, ?_⟩
    intro member mem isManual
    exact Or.inl ((stays mem).mpr (meets member mem isManual))

/-- One request keeps what it must exactly if it meets the condition. -/
theorem stepKeeps_iff (consistent : Consistent governance) (fresh : draw.Fresh governance) :
    StepKeeps governance (draw, request) ↔ RequestMeets governance (draw, request) := by
  have handles := handles_handleScim draw governance request
  unfold RequestMeets
  dsimp only
  cases write : requestedWrite governance request with
  | nothing =>
      rw [write] at handles
      rcases handles with ⟨reply, handled⟩
      exact iff_of_true (stepKeeps_of_unchanged consistent handled) trivial
  | user value existingId =>
      rw [write] at handles
      exact stepKeeps_user_iff consistent fresh handles
  | group value existingId =>
      rw [write] at handles
      exact stepKeeps_group_iff consistent fresh handles (not_postsEmail_of_group write)
  | deleteGroup team =>
      rw [write] at handles
      exact stepKeeps_deleteGroup_iff consistent handles (not_postsEmail_of_deleteGroup write)
  | patchGroup current operations id =>
      rw [write] at handles
      rcases handles with ⟨reply, accepted, handled⟩
      by_cases stays : membersStayArray true operations = true
      · rw [if_pos stays] at handled
        refine Iff.trans ?_ (and_iff_right stays).symm
        exact stepKeeps_group_iff consistent fresh ⟨reply, accepted, handled⟩
          (not_postsEmail_of_patchGroup write)
      · rw [if_neg stays] at handled
        refine iff_of_false ?_ fun meets => stays meets.1
        rintro ⟨after, other, handledOther, _⟩
        rw [handled] at handledOther
        cases handledOther

/-! ## Runs -/

/-- A run keeps what it must exactly if every request meets the condition. -/
theorem scimRun_keeps_iff {initial : GovernanceConfig} (consistent : Consistent initial)
    (steps : List Step)
    (fresh : EveryStep scimStep initial steps fun governance step => step.1.Fresh governance) :
    EveryStep scimStep initial steps StepKeeps ↔
      EveryStep scimStep initial steps RequestMeets := by
  apply everyStep_iff_of_invariant consistent fresh
  · rintro governance step _ ⟨after, reply, handled, consistentAfter, _⟩
    unfold scimStep
    rw [handled]
    exact consistentAfter
  · intro governance step consistentHere freshHere
    exact stepKeeps_iff consistentHere freshHere

/-! ## Requests on a small organization -/

section Sample

def sampleGovernance : GovernanceConfig where
  members := [
    ⟨"owner", "Owner", "owner@example.com", "owner", true, "manual", "", [], ""⟩,
    ⟨"user", "User", "user@example.com", "editor", true, "scim", "idp-1", ["developers"], ""⟩]
  teams := [⟨"developers", "Developers", "group-1", "scim", ["user"]⟩]
  publicBaseUrl := ""

def sampleDraw : Draw where
  uuid := "1"
  hashOrder := id
  hashOrder_perm := fun _ => .refl _

def postUser (userName externalId : String) : Request where
  method := .post
  path := "/scim/v2/Users"
  query := fun _ => none
  body := some (.obj [("userName", .str userName), ("externalId", .str externalId)])

/-- Members that are set to null, and then added to. -/
def patchNullMembers : Request where
  method := .patch
  path := "/scim/v2/Groups/developers"
  query := fun _ => none
  body := some (.obj [("Operations", .arr [
    .obj [("op", .str "replace"), ("value", .obj [("members", .null)])],
    .obj [("op", .str "add"), ("path", .str "members"), ("value", .arr [])]])])

theorem consistent_sampleGovernance : Consistent sampleGovernance where
  memberIds := by decide
  teamIds := by decide
  emails := by decide
  symmetric := by decide
  owner := by decide

theorem fresh_sampleDraw : sampleDraw.Fresh sampleGovernance where
  member := by decide
  memberListed := by decide
  team := by decide
  teamListed := by decide

/-- A patch makes the handler panic, and a POST gives a second member the e-mail of the owner. -/
theorem scimRun_breaks :
    Consistent sampleGovernance ∧ sampleDraw.Fresh sampleGovernance ∧
      handleScim sampleDraw sampleGovernance patchNullMembers = none ∧
      (handleScim sampleDraw sampleGovernance (postUser "owner@example.com" "idp-1")).map
        (fun handled => handled.1.members.map GovernanceMember.email) =
          some ["owner@example.com", "owner@example.com"] := by
  refine ⟨consistent_sampleGovernance, fresh_sampleDraw, ?_, ?_⟩
  · apply Option.isNone_iff_eq_none.mp
    decide
  · decide

/-- A new user is provisioned. -/
theorem scimRun_keeps_newUser :
    EveryStep scimStep sampleGovernance [(sampleDraw, postUser "new@example.com" "idp-2")]
      StepKeeps := by
  have only {condition : GovernanceConfig → Step → Prop}
      (first : condition sampleGovernance (sampleDraw, postUser "new@example.com" "idp-2")) :
      EveryStep scimStep sampleGovernance [(sampleDraw, postUser "new@example.com" "idp-2")]
        condition := by
    intro n inRange
    cases n with
    | zero => exact first
    | succ n => simp at inRange
  apply (scimRun_keeps_iff consistent_sampleGovernance _ (only fresh_sampleDraw)).mpr
  apply only
  have write : requestedWrite sampleGovernance (postUser "new@example.com" "idp-2") =
      .user (.obj [("userName", .str "new@example.com"), ("externalId", .str "idp-2")]) none := by
    decide
  have unmatched : matchedMember sampleGovernance.members
      (.obj [("userName", .str "new@example.com"), ("externalId", .str "idp-2")]) none = none := by
    decide
  unfold RequestMeets
  rw [write]
  intro _
  refine ⟨?_, ?_⟩
  · intro current matched
    rw [unmatched] at matched
    cases matched
  · intro current matched
    rw [unmatched] at matched
    cases matched

end Sample

end Brunomnia.Scim
