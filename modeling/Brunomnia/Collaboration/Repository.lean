import Brunomnia.Strings
import Brunomnia.Library.Search
import Brunomnia.Library.StableSort
import Brunomnia.Collaboration.Snapshot

/-!
# The collaboration repository

Each shared resource has branches, and each branch has the commit at its head.
Committing, merging and restoring add a commit, move the head of the active
branch to it, and then prune the commits of the resource to the newest ones by
date. This file models the repository and its operations; `Date.parse` is a
parameter, as dates are strings, and clocks and identifiers are supplies that an
operation reads in order.
-/

namespace Brunomnia.Collaboration

open Brunomnia.Library

structure CollaborationCommit where
  id : String
  resourceKey : String
  branch : String
  parentId : String
  mergeParentId : Option String
  actor : String
  message : String
  createdAt : String
  snapshot : Json
  deriving DecidableEq

structure CollaborationBranch where
  resourceKey : String
  name : String
  headCommitId : String
  createdAt : String
  updatedAt : String
  deriving DecidableEq

structure CollaborationRepository where
  activeBranches : List (String × String)
  branches : List CollaborationBranch
  commits : List CollaborationCommit
  deriving DecidableEq

structure CollaborationMergeConflict where
  path : String
  base : Option Json
  mine : Option Json
  theirs : Option Json
  deriving DecidableEq

structure CollaborationMergePlan where
  resourceKey : String
  targetBranch : String
  sourceBranch : String
  targetHeadId : String
  sourceHeadId : String
  baseCommitId : String
  mergedSnapshot : Json
  conflicts : List CollaborationMergeConflict
  deriving DecidableEq

def maxBranchesPerResource : ℕ := 50

def maxCommitsPerResource : ℕ := 200

def emptyCollaborationRepository : CollaborationRepository where
  activeBranches := []
  branches := []
  commits := []

/-- `{ ...activeBranches, [key]: name }`. -/
def setActiveBranch (activeBranches : List (String × String)) (key name : String) :
    List (String × String) :=
  if key ∈ activeBranches.map Prod.fst then
    activeBranches.map fun entry => if entry.1 = key then (key, name) else entry
  else activeBranches ++ [(key, name)]

/-- `repository.activeBranches[key] || 'main'`. -/
def activeCollaborationBranch (repository : CollaborationRepository) (key : String) : String :=
  match repository.activeBranches.lookup key with
  | some name => if name = "" then "main" else name
  | none => "main"

def collaborationBranches (repository : CollaborationRepository) (key : String) :
    List CollaborationBranch :=
  repository.branches.filter fun branch => branch.resourceKey = key

/-- The first branch of a resource with a name. -/
def findBranch (repository : CollaborationRepository) (key name : String) :
    Option CollaborationBranch :=
  repository.branches.find? fun candidate => candidate.resourceKey = key ∧ candidate.name = name

def findCommit (repository : CollaborationRepository) (id : String) :
    Option CollaborationCommit :=
  repository.commits.find? fun commit => commit.id = id

/-- The commit at the head of a branch, if the branch has one. -/
def headCommit (repository : CollaborationRepository) (branch : CollaborationBranch) :
    Option CollaborationCommit :=
  if branch.headCommitId = "" then none else findCommit repository branch.headCommitId

def branchHead (repository : CollaborationRepository) (key name : String) :
    Option CollaborationCommit :=
  (findBranch repository key name).bind (headCommit repository)

/-- Resources whose snapshot differs from the head of their active branch. -/
def dirtyCollaborationResources (workspace : Workspace) (repository : CollaborationRepository) :
    List String :=
  ((collaborationResources workspace).filter fun resource =>
      (collaborationResourceSnapshot workspace resource.key).toOption ≠
        (branchHead repository resource.key
          (activeCollaborationBranch repository resource.key)).map
            CollaborationCommit.snapshot).map CollaborationResource.key

/-- Set the head of the first branch of a resource with a name. -/
def setBranchHead (branches : List CollaborationBranch) (key name headCommitId updatedAt : String) :
    List CollaborationBranch :=
  match branches with
  | [] => []
  | branch :: rest =>
      if branch.resourceKey = key ∧ branch.name = name then
        { branch with headCommitId, updatedAt } :: rest
      else branch :: setBranchHead rest key name headCommitId updatedAt

section Operations

variable (dateParse : String → ℤ)

/-- Commits of a resource, newest first; commits of one date keep their order. -/
def collaborationCommits (repository : CollaborationRepository) (key : String) :
    List CollaborationCommit :=
  stableSort (fun commit => -dateParse commit.createdAt)
    (repository.commits.filter fun commit => commit.resourceKey = key)

/-- Keep the newest commits of one resource. -/
def pruneCommits (repository : CollaborationRepository) (key : String) :
    CollaborationRepository :=
  let retained := ((collaborationCommits dateParse repository key).take
    maxCommitsPerResource).map CollaborationCommit.id
  { repository with
    commits := repository.commits.filter fun commit =>
      decide (commit.resourceKey ≠ key ∨ commit.id ∈ retained) }

/-- Put a commit at the head of the branch it was made on, or of a new branch. -/
def pushCommit (repository : CollaborationRepository) (commit : CollaborationCommit) :
    CollaborationRepository :=
  { repository with
    commits := repository.commits ++ [commit]
    branches :=
      if (findBranch repository commit.resourceKey commit.branch).isSome then
        setBranchHead repository.branches commit.resourceKey commit.branch commit.id
          commit.createdAt
      else
        repository.branches ++
          [{ resourceKey := commit.resourceKey
             name := commit.branch
             headCommitId := commit.id
             createdAt := commit.createdAt
             updatedAt := commit.createdAt }] }

/-- Push a commit, then prune the commits of its resource. -/
def addCommit (repository : CollaborationRepository) (commit : CollaborationCommit) :
    CollaborationRepository :=
  pruneCommits dateParse (pushCommit repository commit) commit.resourceKey

/-- The commit that `commitCollaborationResources` makes for a resource, unless the
head of its active branch has the same snapshot. -/
def nextCommit (repository : CollaborationRepository) (key actor message createdAt id : String)
    (snapshot : Json) : Option CollaborationCommit :=
  let branch := activeCollaborationBranch repository key
  let head := branchHead repository key branch
  if some snapshot = head.map CollaborationCommit.snapshot then none
  else
    some
      { id, resourceKey := key, branch
        parentId := (head.map CollaborationCommit.id).getD ""
        mergeParentId := none
        actor := trim actor
        message := sliceUnits message 1000
        createdAt, snapshot }

/-- Push a commit of `commitCollaborationResources`, which also makes a new branch the
active one, then prune the commits of its resource. -/
def addResourceCommit (repository : CollaborationRepository) (commit : CollaborationCommit) :
    CollaborationRepository :=
  let added := addCommit dateParse repository commit
  if (findBranch repository commit.resourceKey commit.branch).isSome then added
  else
    { added with
      activeBranches := setActiveBranch added.activeBranches commit.resourceKey commit.branch }

/-- Commit the resources one after the other; the clock and the identifiers are read
once for every commit made. -/
def commitResources (workspace : Workspace) (actor message : String)
    (now identifier : ℕ → String) (repository : CollaborationRepository) :
    ℕ → List String → Except String (CollaborationRepository × List CollaborationCommit)
  | _, [] => .ok (repository, [])
  | made, key :: keys =>
      match collaborationResourceSnapshot workspace key with
      | .error text => .error text
      | .ok snapshot =>
          match nextCommit repository key actor message (now made) (identifier made) snapshot with
          | none => commitResources workspace actor message now identifier repository made keys
          | some commit =>
              (commitResources workspace actor message now identifier
                (addResourceCommit dateParse repository commit)
                (made + 1) keys).map fun rest => (rest.1, commit :: rest.2)

def commitCollaborationResources (workspace : Workspace) (repository : CollaborationRepository)
    (keys : List String) (actor message : String) (now identifier : ℕ → String) :
    Except String (CollaborationRepository × List CollaborationCommit) :=
  let trimmedMessage := trim message
  if trimmedMessage = "" then .error "Enter a collaboration commit message."
  else
    commitResources dateParse workspace actor trimmedMessage now identifier repository 0
      (keys.eraseDups.take 100)

/-- One to a hundred letters, digits, dots, underscores, slashes or dashes, with a
letter or digit at both ends. -/
def matchesBranchNamePattern (name : String) : Bool :=
  match name.toList with
  | [] => false
  | [letter] => isAlphanumeric letter
  | first :: rest =>
      isAlphanumeric first && rest.getLast?.any isAlphanumeric &&
        rest.dropLast.all (fun letter => isAlphanumeric letter || letter ∈ ['.', '_', '/', '-']) &&
        decide (rest.length ≤ 99)

/-- `name.includes(pair)` for two characters in a row. -/
def hasPair (first second : Char) : List Char → Bool
  | left :: right :: rest =>
      (left = first && right = second) || hasPair first second (right :: rest)
  | _ => false

/-- A branch name that creation and loading accept. -/
def isBranchName (name : String) : Bool :=
  matchesBranchNamePattern name && !hasPair '.' '.' name.toList && !hasPair '/' '/' name.toList

def createCollaborationBranch (repository : CollaborationRepository) (key name now : String) :
    Except String CollaborationRepository :=
  let branchName := trim name
  if ¬ isBranchName branchName then
    .error ("Branch names must be 1-100 safe letters, numbers, dots, slashes, underscores, " ++
      "or dashes.")
  else if ∃ branch ∈ collaborationBranches repository key,
      toLowerCase branch.name = toLowerCase branchName then
    .error ("Branch '" ++ branchName ++ "' already exists for this resource.")
  else if maxBranchesPerResource ≤ (collaborationBranches repository key).length then
    .error "A resource can retain at most 50 branches."
  else
    let head := branchHead repository key (activeCollaborationBranch repository key)
    .ok
      { repository with
        activeBranches := setActiveBranch repository.activeBranches key branchName
        branches := repository.branches ++
          [{ resourceKey := key
             name := branchName
             headCommitId := (head.map CollaborationCommit.id).getD ""
             createdAt := now
             updatedAt := now }] }

def missingBranch (name : String) : String :=
  "Branch '" ++ name ++ "' does not exist for this resource."

def checkoutCollaborationBranch (workspace : Workspace) (repository : CollaborationRepository)
    (key name : String) : Except String (Workspace × CollaborationRepository) :=
  match findBranch repository key name with
  | none => .error (missingBranch name)
  | some branch =>
      let checkedOut := { repository with
        activeBranches := setActiveBranch repository.activeBranches key name }
      match headCommit repository branch with
      | some head =>
          (applyCollaborationSnapshot workspace key head.snapshot).map fun applied =>
            (applied, checkedOut)
      | none => .ok (workspace, checkedOut)

def deleteCollaborationBranch (repository : CollaborationRepository) (key name : String) :
    Except String CollaborationRepository :=
  if name = "main" then .error "The main collaboration branch cannot be deleted."
  else if activeCollaborationBranch repository key = name then
    .error "Check out another branch before deleting the active branch."
  else if ¬ (findBranch repository key name).isSome then .error (missingBranch name)
  else
    .ok { repository with
      branches := repository.branches.filter fun branch =>
        decide (branch.resourceKey ≠ key ∨ branch.name ≠ name) }

/-- The commit that restores the snapshot of an earlier one on the active branch. -/
def restoringCommit (repository : CollaborationRepository) (historical : CollaborationCommit)
    (actor now identifier : String) : CollaborationCommit :=
  let activeBranch := activeCollaborationBranch repository historical.resourceKey
  let head := branchHead repository historical.resourceKey activeBranch
  { id := identifier
    resourceKey := historical.resourceKey
    branch := activeBranch
    parentId := (head.map CollaborationCommit.id).getD ""
    mergeParentId := none
    actor := trim actor
    message := sliceUnits ("Restore " ++ historical.message) 1000
    createdAt := now
    snapshot := historical.snapshot }

def restoreCollaborationCommit (workspace : Workspace) (repository : CollaborationRepository)
    (commitId actor now identifier : String) :
    Except String (Workspace × CollaborationRepository × CollaborationCommit) :=
  match findCommit repository commitId with
  | none => .error "The selected collaboration commit no longer exists."
  | some historical =>
      let commit := restoringCommit repository historical actor now identifier
      (applyCollaborationSnapshot workspace historical.resourceKey historical.snapshot).map
        fun applied => (applied, addCommit dateParse repository commit, commit)

end Operations

end Brunomnia.Collaboration
