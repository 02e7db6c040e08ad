import Brunomnia.Collaboration.Repository

/-!
# Merging branches

A branch is merged into the active one by a three-way merge of snapshots over a
common ancestor. The base is the common ancestor with the smallest sum of
distances to both heads, by breadth-first searches along the parents. This file
models the plan of a merge and the commit that resolves it.
-/

namespace Brunomnia.Collaboration

open Brunomnia.Library

/-! ## Ancestors -/

def parentIds (commit : Option CollaborationCommit) : List String :=
  match commit with
  | some commit => [commit.parentId, commit.mergeParentId.getD ""].filter fun id => id ≠ ""
  | none => []

/-- The parents of the commit with an id. -/
def parentsOf (repository : CollaborationRepository) (id : String) : List String :=
  parentIds (findCommit repository id)

/-- Every commit is expanded once and has at most two parents. -/
def ancestorDistances (repository : CollaborationRepository) (startId : String) :
    List (String × ℕ) :=
  search (parentsOf repository) (2 * repository.commits.length + 1)
    (if startId = "" then [] else [(startId, 0)]) []

/-- `distances.get(id)!` for an id that is there. -/
def distanceOf (distances : List (String × ℕ)) (id : String) : ℕ :=
  (distances.lookup id).getD 0

/-- Ids found from both sides, in the order they were found from the first one. -/
def commonAncestors (mineAncestors theirsAncestors : List (String × ℕ)) : List String :=
  (mineAncestors.map Prod.fst).filter fun id => decide (id ∈ theirsAncestors.map Prod.fst)

def distanceSum (mineAncestors theirsAncestors : List (String × ℕ)) (id : String) : ℕ :=
  distanceOf mineAncestors id + distanceOf theirsAncestors id

/-- The first common ancestor with the smallest sum of distances. -/
def mergeBase (repository : CollaborationRepository) (mineId theirsId : String) : String :=
  let mineAncestors := ancestorDistances repository mineId
  let theirsAncestors := ancestorDistances repository theirsId
  ((stableSort (distanceSum mineAncestors theirsAncestors)
    (commonAncestors mineAncestors theirsAncestors)).head?).getD ""

/-! ## Three-way merge -/

/-- The escapes of a JSON pointer. -/
def escapePointer (key : String) : String :=
  String.ofList (key.toList.flatMap fun letter =>
    if letter = '~' then ['~', '0'] else if letter = '/' then ['~', '1'] else [letter])

def pointer (path key : String) : String :=
  path ++ "/" ++ escapePointer key

/-- `record(value)`, with the members of the object. -/
def record (value : Option Json) : Option (List (String × Json)) :=
  match value with
  | some (.obj members) => some members
  | _ => none

/-- Merge the changes of two values since their base. The fuel bounds how deep the
merge descends into `mine`. Members are read as own ones, so this is the merge of
values without members such as `constructor`, which every object inherits. -/
def mergeValue : ℕ → Option Json → Option Json → Option Json → String →
    Option Json × List CollaborationMergeConflict
  | fuel, base, mine, theirs, path =>
      if mine = theirs then (mine, [])
      else if mine = base then (theirs, [])
      else if theirs = base then (mine, [])
      else
        match fuel, record mine, record theirs with
        | fuel + 1, some mineRecord, some theirsRecord =>
            if (record base).isSome ∨ base = none then
              let baseRecord := (record base).getD []
              let keys := (baseRecord.map Prod.fst ++ mineRecord.map Prod.fst ++
                theirsRecord.map Prod.fst).eraseDups
              let merged := keys.map fun key =>
                (key, mergeValue fuel (baseRecord.lookup key) (mineRecord.lookup key)
                  (theirsRecord.lookup key) (pointer path key))
              (some (.obj (Json.assignAll [] (merged.filterMap fun entry =>
                  entry.2.1.map fun value => (entry.1, value)))),
                merged.flatMap fun entry => entry.2.2)
            else
              (mine, [{ path := if path = "" then "/" else path, base, mine, theirs }])
        | _, _, _ => (mine, [{ path := if path = "" then "/" else path, base, mine, theirs }])

/-- The fuel that a merge into a value needs. -/
def mergeDepth (mine : Option Json) : ℕ :=
  (mine.map Json.depth).getD 0

/-- More fuel than the depth of `mine` changes nothing. -/
theorem mergeValue_of_depth_le {fuel : ℕ} {mine : Option Json} (enough : mergeDepth mine ≤ fuel)
    (base theirs : Option Json) (path : String) :
    mergeValue (fuel + 1) base mine theirs path = mergeValue fuel base mine theirs path := by
  induction fuel generalizing base mine theirs path with
  | zero =>
      have noRecord : record mine = none := by
        unfold record
        split
        · simp [mergeDepth, Json.depth] at enough
        · rfl
      unfold mergeValue
      rw [noRecord]
  | succ fuel ih =>
      unfold mergeValue
      cases mineEq : record mine with
      | none => rfl
      | some mineRecord =>
          have isRecord : mine = some (.obj mineRecord) := by
            unfold record at mineEq
            split at mineEq
            · rw [Option.some.inj mineEq]
            · simp at mineEq
          have childDepth : ∀ key, mergeDepth (mineRecord.lookup key) ≤ fuel := by
            intro key
            cases found : mineRecord.lookup key with
            | none => simp [mergeDepth]
            | some value =>
                have below := Json.depth_lt_of_lookup found
                rw [isRecord] at enough
                simp only [mergeDepth, Option.map_some, Option.getD_some] at enough ⊢
                omega
          have children : ∀ key base theirs path,
              mergeValue (fuel + 1) base (mineRecord.lookup key) theirs path =
                mergeValue fuel base (mineRecord.lookup key) theirs path :=
            fun key base theirs path => ih (childDepth key) base theirs path
          cases record theirs with
          | none => rfl
          | some theirsRecord => simp only [children]

/-! ## Plans -/

def planCollaborationBranchMerge (repository : CollaborationRepository)
    (key sourceBranch : String) : Except String CollaborationMergePlan :=
  let targetBranch := activeCollaborationBranch repository key
  if sourceBranch = targetBranch then .error "Choose another branch to merge."
  else
    match branchHead repository key targetBranch, branchHead repository key sourceBranch with
    | some mine, some theirs =>
        let common := mergeBase repository mine.id theirs.id
        let base := if common = "" then none else findCommit repository common
        let merged := mergeValue (mergeDepth (some mine.snapshot))
          (base.map CollaborationCommit.snapshot) (some mine.snapshot) (some theirs.snapshot) ""
        .ok
          { resourceKey := key
            targetBranch, sourceBranch
            targetHeadId := mine.id
            sourceHeadId := theirs.id
            baseCommitId := common
            mergedSnapshot := merged.1.getD .null
            conflicts := merged.2 }
    | _, _ => .error "Both branches need at least one commit before merging."

/-- Replace every occurrence of two characters in a row. -/
def replacePair (first second replacement : Char) : List Char → List Char
  | left :: right :: rest =>
      if left = first ∧ right = second then
        replacement :: replacePair first second replacement rest
      else left :: replacePair first second replacement (right :: rest)
  | letters => letters

def decodePointer (path : String) : List String :=
  if path = "/" then []
  else
    ((path.toList.splitOn '/').drop 1).map fun part =>
      String.ofList (replacePair '~' '0' '~' (replacePair '~' '1' '/' part))

/-- Set or delete a member below an object; what is no object on the way becomes one. -/
def setMemberAt (value : Option Json) : List String → Json → Json
  | [], current => current
  | [final], current =>
      match value with
      | some content => .obj (Json.assign current.members final content)
      | none => current.without final
  | part :: rest, current =>
      .obj (Json.assign current.members part
        (setMemberAt value rest (.obj ((record (current.get? part)).getD []))))

/-- Snapshots are objects; a member of anything else cannot be assigned. -/
def setPointer (source : Json) (path : String) (value : Option Json) : Except String Json :=
  match decodePointer path with
  | [] => .ok (value.getD .null)
  | parts =>
      if source.isObject then .ok (setMemberAt value parts source)
      else .error "Cannot set properties of a value that is no object."

/-- The value a resolution selects for a conflict. -/
def resolvedValue (conflict : CollaborationMergeConflict) (resolution : Json) : Option Json :=
  if resolution = .str "mine" then conflict.mine
  else if resolution = .str "theirs" then conflict.theirs
  else some resolution

def applyResolutions (resolutions : List (String × Json)) :
    Json → List CollaborationMergeConflict → Except String Json
  | snapshot, [] => .ok snapshot
  | snapshot, conflict :: rest =>
      match resolutions.lookup conflict.path with
      | none => .error ("Resolve collaboration conflict '" ++ conflict.path ++ "' before merging.")
      | some resolution =>
          match setPointer snapshot conflict.path (resolvedValue conflict resolution) with
          | .error text => .error text
          | .ok next => applyResolutions resolutions next rest

/-- The commit that a resolved merge makes. -/
def mergeCommit (plan : CollaborationMergePlan) (snapshot : Json)
    (actor message now identifier : String) : CollaborationCommit :=
  let trimmedMessage := trim message
  { id := identifier
    resourceKey := plan.resourceKey
    branch := plan.targetBranch
    parentId := plan.targetHeadId
    mergeParentId := some plan.sourceHeadId
    actor := trim actor
    message :=
      if trimmedMessage = "" then "Merge " ++ plan.sourceBranch ++ " into " ++ plan.targetBranch
      else trimmedMessage
    createdAt := now
    snapshot }

def resolveCollaborationBranchMerge (dateParse : String → ℤ) (workspace : Workspace)
    (repository : CollaborationRepository) (plan : CollaborationMergePlan)
    (resolutions : List (String × Json)) (actor message now identifier : String) :
    Except String (Workspace × CollaborationRepository × CollaborationCommit) :=
  match applyResolutions resolutions plan.mergedSnapshot plan.conflicts with
  | .error text => .error text
  | .ok snapshot =>
      let commit := mergeCommit plan snapshot actor message now identifier
      if (findBranch repository plan.resourceKey plan.targetBranch).any fun branch =>
          branch.headCommitId = plan.targetHeadId then
        (applyCollaborationSnapshot workspace plan.resourceKey snapshot).map fun applied =>
          (applied, addCommit dateParse repository commit, commit)
      else .error "The target branch changed after the merge preview. Review it again."

end Brunomnia.Collaboration
