import Brunomnia.Scim.Connector

/-!
# What a request writes

Every request stores one user, stores or patches one group, deletes one group, or changes nothing.
A patch of a group panics if an operation on its members finds no array.
-/

namespace Brunomnia.Scim

open Library

/-! ## When a patch panics -/

/-- The value that a merged object puts under `members`. -/
def mergedMembers (operation : Json) : Option Json :=
  (Json.obj []).spread (operationValue operation).members |>.get? "members"

def isArray : Json → Bool
  | .arr _ => true
  | _ => false

/-- Every operation on the members finds an array, given whether there is one to begin with. -/
def membersStayArray : Bool → List Json → Bool
  | _, [] => true
  | found, operation :: rest =>
      if mergesObject operation then
        membersStayArray (((mergedMembers operation).map isArray).getD found) rest
      else if targetsMembers operation then found && membersStayArray found rest
      else membersStayArray found rest

def holdsArray (value : Json) : Bool :=
  ((value.get? "members").map isArray).getD false

theorem holdsArray_spread_merged (value operation : Json) :
    holdsArray (value.spread (operationValue operation).members) =
      ((mergedMembers operation).map isArray).getD (holdsArray value) := by
  unfold holdsArray mergedMembers
  rw [Json.get?_spread_or]
  cases ((Json.obj []).spread (operationValue operation).members).get? "members" <;> rfl

theorem ne_members_of_not_targetsMembers {operation : Json}
    (elsewhere : targetsMembers operation = false) : operationPath operation ≠ "members" := by
  intro same
  rw [targetsMembers, same] at elsewhere
  simp [eqIgnoreAsciiCase] at elsewhere

/-- A patch of a group panics exactly if an operation on the members finds no array. -/
theorem patchGroup_isSome_iff (value : Json) (operations : List Json) :
    (operations.foldlM patchGroupStep value).isSome =
      membersStayArray (holdsArray value) operations := by
  induction operations generalizing value with
  | nil => rfl
  | cons operation rest ih =>
      rw [List.foldlM_cons, membersStayArray]
      by_cases merges : mergesObject operation = true
      · have step : patchGroupStep value operation =
            some (value.spread (operationValue operation).members) := if_pos merges
        rw [step, if_pos merges, ← holdsArray_spread_merged]
        exact ih _
      · rw [if_neg merges]
        by_cases targets : targetsMembers operation = true
        · rw [if_pos targets]
          cases found : value.get? "members" with
          | none =>
              have step : patchGroupStep value operation = none := by
                simp [patchGroupStep, merges, targets, found]
              have before : holdsArray value = false := by simp [holdsArray, found]
              rw [step, before]
              rfl
          | some members =>
              cases members with
              | arr target =>
                  have step : patchGroupStep value operation = some (value.spread
                      [("members", .arr (patchMembers target operation))]) := by
                    simp [patchGroupStep, merges, targets, found]
                  have after : holdsArray (value.spread
                      [("members", .arr (patchMembers target operation))]) = true := by
                    simp [holdsArray, Json.get?_spread_singleton, isArray]
                  have before : holdsArray value = true := by simp [holdsArray, found, isArray]
                  have rest := ih (value.spread
                    [("members", .arr (patchMembers target operation))])
                  rw [after] at rest
                  rw [step, before, Bool.true_and]
                  exact rest
              | _ =>
                  have step : patchGroupStep value operation = none := by
                    simp [patchGroupStep, merges, targets, found]
                  have before : holdsArray value = false := by simp [holdsArray, found, isArray]
                  rw [step, before]
                  rfl
        · have elsewhere : targetsMembers operation = false := by simpa using targets
          have path := ne_members_of_not_targetsMembers elsewhere
          rw [if_neg targets]
          by_cases adds : addsOrReplaces operation = true
          · have step : patchGroupStep value operation = some (value.spread
                [(operationPath operation, operationValue operation)]) := by
              simp [patchGroupStep, merges, targets, adds]
            have kept : holdsArray (value.spread
                [(operationPath operation, operationValue operation)]) = holdsArray value := by
              simp [holdsArray, Json.get?_spread_singleton, Ne.symm path]
            rw [step, ← kept]
            exact ih _
          · have step : patchGroupStep value operation = some value := by
              simp [patchGroupStep, merges, targets, adds]
            rw [step]
            exact ih _

/-- What an operation makes of a group whose members are an array. -/
def patchedStep (value operation : Json) : Json :=
  if mergesObject operation then value.spread (operationValue operation).members
  else if targetsMembers operation then
    value.spread [("members", .arr (patchMembers (value.list "members") operation))]
  else if addsOrReplaces operation then
    value.spread [(operationPath operation, operationValue operation)]
  else value

/-- What operations make of a group whose members stay an array. -/
def patchedGroup (current : GovernanceTeam) (operations : List Json) : Json :=
  operations.foldl patchedStep (groupJsonStub current)

theorem patchGroupStep_eq {value operation after : Json}
    (patched : patchGroupStep value operation = some after) :
    after = patchedStep value operation := by
  unfold patchGroupStep at patched
  unfold patchedStep
  split at patched
  case isTrue merges =>
    rw [if_pos merges]
    exact (Option.some_inj.mp patched).symm
  case isFalse merges =>
    rw [if_neg merges]
    split at patched
    case isTrue targets =>
      rw [if_pos targets]
      split at patched
      case h_1 target found =>
        rw [Json.list_of_get? found]
        exact (Option.some_inj.mp patched).symm
      case h_2 => cases patched
    case isFalse targets =>
      rw [if_neg targets]
      split at patched
      case isTrue adds =>
        rw [if_pos adds]
        exact (Option.some_inj.mp patched).symm
      case isFalse adds =>
        rw [if_neg adds]
        exact (Option.some_inj.mp patched).symm

theorem patchGroup_eq {value after : Json} {operations : List Json}
    (patched : operations.foldlM patchGroupStep value = some after) :
    after = operations.foldl patchedStep value := by
  induction operations generalizing value with
  | nil => exact (Option.some_inj.mp patched).symm
  | cons operation rest ih =>
      rw [List.foldlM_cons] at patched
      rcases Option.bind_eq_some_iff.mp patched with ⟨next, stepped, others⟩
      rw [List.foldl_cons, ← patchGroupStep_eq stepped]
      exact ih others

theorem patchGroupValue_eq (current : GovernanceTeam) (patch : Json) :
    patchGroupValue current patch =
      if membersStayArray true (patchOperations patch) then
        some (patchedGroup current (patchOperations patch))
      else none := by
  have isSome := patchGroup_isSome_iff (groupJsonStub current) (patchOperations patch)
  have stub : holdsArray (groupJsonStub current) = true := rfl
  rw [stub] at isSome
  cases patched : patchGroupValue current patch with
  | none =>
      have panics : membersStayArray true (patchOperations patch) = false :=
        isSome.symm.trans (congrArg Option.isSome patched)
      rw [if_neg (by simp [panics])]
  | some value =>
      have stays : membersStayArray true (patchOperations patch) = true :=
        isSome.symm.trans (congrArg Option.isSome patched)
      rw [if_pos stays, patchGroup_eq patched]
      rfl

/-! ## Writes -/

inductive Write where
  | nothing
  | user (value : Json) (existingId : Option String)
  | group (value : Json) (existingId : Option String)
  | patchGroup (current : GovernanceTeam) (operations : List Json) (id : String)
  | deleteGroup (team : GovernanceTeam)
  deriving DecidableEq

def writeOfUserRequest (governance : GovernanceConfig) (request : Request) (id : String) :
    Write :=
  match request.method with
  | .put => (request.body.map fun value => .user value (some id)).getD .nothing
  | .patch =>
      (request.body.bind fun patch => (findUser governance id).map fun current =>
        .user (patchUserValue current patch) (some id)).getD .nothing
  | .delete =>
      ((findUser governance id).map fun current =>
        .user ((userJsonStub current).spread [("active", .bool false)]) (some id)).getD .nothing
  | _ => .nothing

def writeOfGroupRequest (governance : GovernanceConfig) (request : Request) (id : String) :
    Write :=
  match request.method with
  | .put => (request.body.map fun value => .group value (some id)).getD .nothing
  | .patch =>
      (request.body.bind fun patch => (findGroup governance id).map fun current =>
        .patchGroup current (patchOperations patch) id).getD .nothing
  | .delete => ((findGroup governance id).map Write.deleteGroup).getD .nothing
  | _ => .nothing

def requestedWrite (governance : GovernanceConfig) (request : Request) : Write :=
  match segments request.path with
  | ["Users"] =>
      if request.method = .post then
        (request.body.map fun value => .user value none).getD .nothing
      else .nothing
  | ["Groups"] =>
      if request.method = .post then
        (request.body.map fun value => .group value none).getD .nothing
      else .nothing
  | ["Users", id] => writeOfUserRequest governance request id
  | ["Groups", id] => writeOfGroupRequest governance request id
  | _ => .nothing

/-- The handler carries out the write of a request. -/
def Handles (draw : Draw) (governance : GovernanceConfig) (request : Request)
    (handled : Option (GovernanceConfig × Reply)) : Write → Prop
  | .nothing => ∃ reply, handled = some (governance, reply)
  | .user value existingId =>
      ∃ reply, (∀ saved member, ¬ (reply saved member).IsError) ∧
        handled = some (provisionUser draw governance value existingId reply) ∧
          (existingId = none ↔ request.method = .post ∧ segments request.path = ["Users"] ∧
            request.body = some value)
  | .group value existingId =>
      ∃ reply, (∀ saved team, ¬ (reply saved team).IsError) ∧
        handled = some (provisionGroup draw governance value existingId reply)
  | .patchGroup current operations id =>
      ∃ reply, (∀ saved team, ¬ (reply saved team).IsError) ∧
        handled =
          if membersStayArray true operations then
            some (provisionGroup draw governance (patchedGroup current operations) (some id) reply)
          else none
  | .deleteGroup team =>
      team ∈ governance.teams ∧ ∃ reply, ¬ reply.IsError ∧
        handled = some (deleteTeam governance team, reply)

theorem handles_nothing (draw : Draw) (governance : GovernanceConfig) (request : Request)
    (reply : Reply) : Handles draw governance request (some (governance, reply)) .nothing :=
  ⟨reply, rfl⟩

theorem handles_user {draw : Draw} {governance : GovernanceConfig} {request : Request}
    {value : Json} {existingId : Option String}
    {reply : GovernanceConfig → GovernanceMember → Reply}
    (accepted : ∀ saved member, ¬ (reply saved member).IsError)
    (posted : existingId = none ↔ request.method = .post ∧ segments request.path = ["Users"] ∧
      request.body = some value) :
    Handles draw governance request
      (some (provisionUser draw governance value existingId reply)) (.user value existingId) :=
  ⟨reply, accepted, rfl, posted⟩

theorem handles_group {draw : Draw} {governance : GovernanceConfig} {request : Request}
    {value : Json} {existingId : Option String} {reply : GovernanceConfig → GovernanceTeam → Reply}
    (accepted : ∀ saved team, ¬ (reply saved team).IsError) :
    Handles draw governance request
      (some (provisionGroup draw governance value existingId reply)) (.group value existingId) :=
  ⟨reply, accepted, rfl⟩

theorem handles_patch {draw : Draw} {governance : GovernanceConfig} {request : Request}
    {current : GovernanceTeam} {patch : Json} {id : String}
    {reply : GovernanceConfig → GovernanceTeam → Reply}
    (accepted : ∀ saved team, ¬ (reply saved team).IsError) :
    Handles draw governance request
      ((patchGroupValue current patch).map fun value =>
        provisionGroup draw governance value (some id) reply)
      (.patchGroup current (patchOperations patch) id) := by
  refine ⟨reply, accepted, ?_⟩
  rw [patchGroupValue_eq]
  split <;> rfl

theorem findGroup_mem {governance : GovernanceConfig} {id : String} {team : GovernanceTeam}
    (found : findGroup governance id = some team) :
    team ∈ governance.teams ∧ team.id = id ∧ team.source = "scim" := by
  refine ⟨List.mem_of_find?_eq_some found, ?_⟩
  simpa using List.find?_some found

/-- The handler does what the request asks to write. -/
theorem handles_handleScim (draw : Draw) (governance : GovernanceConfig) (request : Request) :
    Handles draw governance request (handleScim draw governance request)
      (requestedWrite governance request) := by
  rcases request with ⟨method, path, query, body⟩
  unfold handleScim requestedWrite
  dsimp only
  split
  case h_1 segmentsEq =>
    simp only [segmentsEq]
    apply handles_nothing
  case h_2 segmentsEq =>
    simp only [segmentsEq]
    apply handles_nothing
  case h_3 segmentsEq =>
    simp only [segmentsEq]
    apply handles_nothing
  case h_4 segmentsEq =>
    simp only [segmentsEq]
    apply handles_nothing
  case h_5 segmentsEq =>
    simp only [segmentsEq]
    cases body with
    | none => apply handles_nothing
    | some value =>
        apply handles_user
        · simp [Reply.IsError, StatusCode.number]
        · simp [segmentsEq]
  case h_6 id segmentsEq =>
    simp only [segmentsEq, writeOfUserRequest]
    cases findUser governance id with
    | none => apply handles_nothing
    | some member => apply handles_nothing
  case h_7 id segmentsEq =>
    simp only [segmentsEq, writeOfUserRequest]
    cases body with
    | none => apply handles_nothing
    | some value =>
        apply handles_user
        · simp [Reply.IsError, StatusCode.number]
        · simp
  case h_8 id segmentsEq =>
    simp only [segmentsEq, writeOfUserRequest]
    cases body with
    | none => apply handles_nothing
    | some patch =>
        cases findUser governance id with
        | none => apply handles_nothing
        | some current =>
            apply handles_user
            · simp [Reply.IsError, StatusCode.number]
            · simp
  case h_9 id segmentsEq =>
    simp only [segmentsEq, writeOfUserRequest]
    cases findUser governance id with
    | none => apply handles_nothing
    | some current =>
        apply handles_user
        · simp [Reply.IsError, StatusCode.number]
        · simp
  case h_10 segmentsEq =>
    simp only [segmentsEq]
    apply handles_nothing
  case h_11 segmentsEq =>
    simp only [segmentsEq]
    cases body with
    | none => apply handles_nothing
    | some value =>
        apply handles_group
        simp [Reply.IsError, StatusCode.number]
  case h_12 id segmentsEq =>
    simp only [segmentsEq, writeOfGroupRequest]
    cases findGroup governance id with
    | none => apply handles_nothing
    | some team => apply handles_nothing
  case h_13 id segmentsEq =>
    simp only [segmentsEq, writeOfGroupRequest]
    cases body with
    | none => apply handles_nothing
    | some value =>
        apply handles_group
        simp [Reply.IsError, StatusCode.number]
  case h_14 id segmentsEq =>
    simp only [segmentsEq, writeOfGroupRequest]
    cases body with
    | none => apply handles_nothing
    | some patch =>
        cases findGroup governance id with
        | none => apply handles_nothing
        | some current =>
            apply handles_patch
            simp [Reply.IsError, StatusCode.number]
  case h_15 id segmentsEq =>
    simp only [segmentsEq, writeOfGroupRequest]
    cases found : findGroup governance id with
    | none => apply handles_nothing
    | some team =>
        refine ⟨(findGroup_mem found).1, _, ?_, rfl⟩
        simp [Reply.IsError, StatusCode.number]
  case h_16 method _ _ _ _ _ _ _ _ _ _ _ _ _ _ _ _ =>
    split
    case h_1 segmentsEq => cases method <;> simp_all [handles_nothing]
    case h_2 segmentsEq => cases method <;> simp_all [handles_nothing]
    case h_3 id segmentsEq => cases method <;> simp_all [writeOfUserRequest, handles_nothing]
    case h_4 id segmentsEq => cases method <;> simp_all [writeOfGroupRequest, handles_nothing]
    case h_5 => apply handles_nothing

end Brunomnia.Scim
