import Brunomnia.Library.Runs
import Brunomnia.Collaboration.Merge

/-!
# Collaboration sessions

A session is a repository that commands change one after the other. A rejected
command changes nothing. Commit ids come from one supply that never repeats, so
in every session the ids of commits differ, and so do the names of the branches of
a resource. This file says what a command can do to commits and branches.
-/

namespace Brunomnia.Collaboration

open Brunomnia.Library

/-- A supply of commit ids, none of them handed out twice and none empty. -/
structure CommitIds where
  identifier : ℕ → String
  injective : Function.Injective identifier
  nonempty : ∀ n, identifier n ≠ ""

structure Session where
  repository : CollaborationRepository
  drawn : ℕ
  deriving DecidableEq

def emptySession : Session where
  repository := emptyCollaborationRepository
  drawn := 0

inductive CollaborationCommand where
  | commit (workspace : Workspace) (keys : List String) (actor message : String)
      (now : ℕ → String)
  | createBranch (key name now : String)
  | checkout (workspace : Workspace) (key name : String)
  | deleteBranch (key name : String)
  | resolveMerge (workspace : Workspace) (plan : CollaborationMergePlan)
      (resolutions : List (String × Json)) (actor message now : String)
  | restore (workspace : Workspace) (commitId actor now : String)

variable (dateParse : String → ℤ) (ids : CommitIds)

/-- Run the operation of a command. -/
def execute (session : Session) : CollaborationCommand → Except String Session
  | .commit workspace keys actor message now =>
      (commitCollaborationResources dateParse workspace session.repository keys actor message now
        fun made => ids.identifier (session.drawn + made)).map fun result =>
          { repository := result.1, drawn := session.drawn + result.2.length }
  | .createBranch key name now =>
      (createCollaborationBranch session.repository key name now).map fun repository =>
        { session with repository }
  | .checkout workspace key name =>
      (checkoutCollaborationBranch workspace session.repository key name).map fun result =>
        { session with repository := result.2 }
  | .deleteBranch key name =>
      (deleteCollaborationBranch session.repository key name).map fun repository =>
        { session with repository }
  | .resolveMerge workspace plan resolutions actor message now =>
      (resolveCollaborationBranchMerge dateParse workspace session.repository plan resolutions
        actor message now (ids.identifier session.drawn)).map fun result =>
          { repository := result.2.1, drawn := session.drawn + 1 }
  | .restore workspace commitId actor now =>
      (restoreCollaborationCommit dateParse workspace session.repository commitId actor now
        (ids.identifier session.drawn)).map fun result =>
          { repository := result.2.1, drawn := session.drawn + 1 }

/-- The session after a command; a rejected one leaves the session as it is. -/
def runCommand (session : Session) (command : CollaborationCommand) : Session :=
  match execute dateParse ids session command with
  | .ok after => after
  | .error _ => session

variable {dateParse ids}

/-! ## Parts of a repository that belong to one resource -/

def commitsOf (repository : CollaborationRepository) (key : String) : List CollaborationCommit :=
  repository.commits.filter fun commit => commit.resourceKey = key

theorem mem_commitsOf {repository : CollaborationRepository} {key : String}
    {commit : CollaborationCommit} :
    commit ∈ commitsOf repository key ↔ commit ∈ repository.commits ∧ commit.resourceKey = key := by
  simp [commitsOf]

theorem mem_collaborationBranches {repository : CollaborationRepository} {key : String}
    {branch : CollaborationBranch} :
    branch ∈ collaborationBranches repository key ↔
      branch ∈ repository.branches ∧ branch.resourceKey = key := by
  simp [collaborationBranches]

theorem findBranch_eq (repository : CollaborationRepository) (key name : String) :
    findBranch repository key name =
      (collaborationBranches repository key).find? fun branch => branch.name = name := by
  simp [findBranch, collaborationBranches, List.find?_filter]

/-- Ids are unique and non-empty, and a resource has one branch of each name. -/
structure CollaborationRepository.Sound (repository : CollaborationRepository) : Prop where
  idsNodup : (repository.commits.map CollaborationCommit.id).Nodup
  idsNonempty : ∀ commit ∈ repository.commits, commit.id ≠ ""
  namesNodup : (repository.branches.map fun branch => (branch.resourceKey, branch.name)).Nodup

theorem CollaborationRepository.Sound.findCommit_eq {repository : CollaborationRepository}
    (sound : repository.Sound) {commit : CollaborationCommit}
    (commitMem : commit ∈ repository.commits) : findCommit repository commit.id = some commit := by
  unfold findCommit
  cases found : repository.commits.find? fun candidate => candidate.id = commit.id with
  | none => simpa using List.find?_eq_none.mp found commit commitMem
  | some other =>
      have idEq : other.id = commit.id := by simpa using List.find?_some found
      rw [List.inj_on_of_nodup_map sound.idsNodup (List.mem_of_find?_eq_some found) commitMem idEq]

theorem findCommit_spec {repository : CollaborationRepository} {id : String}
    {commit : CollaborationCommit} (found : findCommit repository id = some commit) :
    commit ∈ repository.commits ∧ commit.id = id :=
  ⟨List.mem_of_find?_eq_some found, by simpa using List.find?_some found⟩

theorem findBranch_spec {repository : CollaborationRepository} {key name : String}
    {branch : CollaborationBranch} (found : findBranch repository key name = some branch) :
    branch ∈ repository.branches ∧ branch.resourceKey = key ∧ branch.name = name :=
  ⟨List.mem_of_find?_eq_some found, by simpa using List.find?_some found⟩

theorem findBranch_isSome_iff {repository : CollaborationRepository} {key name : String} :
    (findBranch repository key name).isSome ↔
      ∃ branch ∈ repository.branches, branch.resourceKey = key ∧ branch.name = name := by
  simp [findBranch, List.find?_isSome]

/-! ## Adding a commit -/

/-- With unique names, the head of the one branch with a name is set. -/
theorem mem_setBranchHead {branches : List CollaborationBranch} {key name head updatedAt : String}
    (namesNodup : (branches.map fun branch => (branch.resourceKey, branch.name)).Nodup)
    {branch : CollaborationBranch} :
    branch ∈ setBranchHead branches key name head updatedAt ↔
      (branch ∈ branches ∧ ¬ (branch.resourceKey = key ∧ branch.name = name)) ∨
        ∃ earlier ∈ branches, (earlier.resourceKey = key ∧ earlier.name = name) ∧
          branch = { earlier with headCommitId := head, updatedAt } := by
  induction branches with
  | nil => simp [setBranchHead]
  | cons first rest ih =>
      rw [List.map_cons, List.nodup_cons] at namesNodup
      by_cases isNamed : first.resourceKey = key ∧ first.name = name
      · have restNamed : ∀ other ∈ rest, ¬ (other.resourceKey = key ∧ other.name = name) := by
          rintro other otherMem ⟨keyEq, nameEq⟩
          apply namesNodup.1
          rw [List.mem_map]
          exact ⟨other, otherMem, by rw [keyEq, nameEq, isNamed.1, isNamed.2]⟩
        simp only [setBranchHead, if_pos isNamed, List.mem_cons]
        constructor
        · rintro (rfl | restMem)
          · exact Or.inr ⟨first, Or.inl rfl, isNamed, rfl⟩
          · exact Or.inl ⟨Or.inr restMem, restNamed branch restMem⟩
        · rintro (⟨rfl | restMem, other⟩ | ⟨earlier, rfl | restMem, named, rfl⟩)
          · exact absurd isNamed other
          · exact Or.inr restMem
          · exact Or.inl rfl
          · exact absurd named (restNamed earlier restMem)
      · simp only [setBranchHead, if_neg isNamed, List.mem_cons, ih namesNodup.2]
        constructor
        · rintro (rfl | ⟨restMem, other⟩ | ⟨earlier, restMem, named, rfl⟩)
          · exact Or.inl ⟨Or.inl rfl, isNamed⟩
          · exact Or.inl ⟨Or.inr restMem, other⟩
          · exact Or.inr ⟨earlier, Or.inr restMem, named, rfl⟩
        · rintro (⟨rfl | restMem, other⟩ | ⟨earlier, rfl | restMem, named, rfl⟩)
          · exact Or.inl rfl
          · exact Or.inr (Or.inl ⟨restMem, other⟩)
          · exact absurd named isNamed
          · exact Or.inr (Or.inr ⟨earlier, restMem, named, rfl⟩)

theorem setBranchHead_names (branches : List CollaborationBranch)
    (key name head updatedAt : String) :
    (setBranchHead branches key name head updatedAt).map
        (fun branch => (branch.resourceKey, branch.name)) =
      branches.map fun branch => (branch.resourceKey, branch.name) := by
  induction branches with
  | nil => rfl
  | cons first rest ih =>
      unfold setBranchHead
      split
      · rfl
      · rw [List.map_cons, List.map_cons, ih]

theorem setBranchHead_filter (branches : List CollaborationBranch)
    {key other : String} (different : other ≠ key) (name head updatedAt : String) :
    (setBranchHead branches key name head updatedAt).filter
        (fun branch => branch.resourceKey = other) =
      branches.filter fun branch => branch.resourceKey = other := by
  induction branches with
  | nil => rfl
  | cons first rest ih =>
      unfold setBranchHead
      split
      · rename_i isNamed
        have firstOther : ¬ first.resourceKey = other := fun eq => different (eq ▸ isNamed.1)
        rw [List.filter_cons_of_neg (by simpa using firstOther),
          List.filter_cons_of_neg (by simpa using firstOther)]
      · rw [List.filter_cons, List.filter_cons, ih]

theorem mem_pushCommit_branches {repository : CollaborationRepository} (sound : repository.Sound)
    (commit : CollaborationCommit) {branch : CollaborationBranch}
    (branchMem : branch ∈ (pushCommit repository commit).branches) :
    (branch ∈ repository.branches ∧
        ¬ (branch.resourceKey = commit.resourceKey ∧ branch.name = commit.branch)) ∨
      (branch.resourceKey = commit.resourceKey ∧ branch.name = commit.branch ∧
        branch.headCommitId = commit.id) := by
  unfold pushCommit at branchMem
  dsimp only at branchMem
  split at branchMem
  · rcases (mem_setBranchHead sound.namesNodup).mp branchMem with
      unchanged | ⟨earlier, _, named, rfl⟩
    · exact Or.inl unchanged
    · exact Or.inr ⟨named.1, named.2, rfl⟩
  · rename_i missing
    rw [findBranch_isSome_iff] at missing
    rw [List.mem_append, List.mem_singleton] at branchMem
    rcases branchMem with branchMem | rfl
    · exact Or.inl ⟨branchMem, fun named => missing ⟨branch, branchMem, named⟩⟩
    · exact Or.inr ⟨rfl, rfl, rfl⟩

theorem mem_pushCommit_branches_of_ne {repository : CollaborationRepository}
    (sound : repository.Sound) {commit : CollaborationCommit} {branch : CollaborationBranch}
    (branchMem : branch ∈ repository.branches)
    (other : ¬ (branch.resourceKey = commit.resourceKey ∧ branch.name = commit.branch)) :
    branch ∈ (pushCommit repository commit).branches := by
  unfold pushCommit
  dsimp only
  split
  · exact (mem_setBranchHead sound.namesNodup).mpr (Or.inl ⟨branchMem, other⟩)
  · exact List.mem_append_left _ branchMem

theorem exists_pushed_branch {repository : CollaborationRepository} (sound : repository.Sound)
    (commit : CollaborationCommit) :
    ∃ branch ∈ (pushCommit repository commit).branches,
      branch.resourceKey = commit.resourceKey ∧ branch.name = commit.branch ∧
        branch.headCommitId = commit.id := by
  unfold pushCommit
  dsimp only
  split
  · rename_i found
    rcases findBranch_isSome_iff.mp found with ⟨earlier, earlierMem, keyEq, nameEq⟩
    refine ⟨{ earlier with headCommitId := commit.id, updatedAt := commit.createdAt }, ?_,
      keyEq, nameEq, rfl⟩
    exact (mem_setBranchHead sound.namesNodup).mpr
      (Or.inr ⟨earlier, earlierMem, ⟨keyEq, nameEq⟩, rfl⟩)
  · refine ⟨_, List.mem_append_right _ (List.mem_singleton.mpr rfl), rfl, rfl, rfl⟩

theorem pushCommit_names_nodup {repository : CollaborationRepository} (sound : repository.Sound)
    (commit : CollaborationCommit) :
    ((pushCommit repository commit).branches.map fun branch =>
      (branch.resourceKey, branch.name)).Nodup := by
  unfold pushCommit
  dsimp only
  split
  · rw [setBranchHead_names]
    exact sound.namesNodup
  · rename_i missing
    rw [findBranch_isSome_iff] at missing
    rw [List.map_append, List.map_singleton, ← List.concat_eq_append, List.nodup_concat]
    refine ⟨?_, sound.namesNodup⟩
    rw [List.mem_map]
    rintro ⟨branch, branchMem, named⟩
    exact missing ⟨branch, branchMem, (Prod.mk.inj named).1, (Prod.mk.inj named).2⟩

/-- Pruning a resource keeps the other commits and its newest ones. -/
theorem mem_pruneCommits_iff {repository : CollaborationRepository}
    (idsNodup : (repository.commits.map CollaborationCommit.id).Nodup) (key : String)
    {commit : CollaborationCommit} :
    commit ∈ (pruneCommits dateParse repository key).commits ↔
      commit ∈ repository.commits ∧
        (commit.resourceKey = key →
          rank (fun commit => -dateParse commit.createdAt) (commitsOf repository key) commit <
            maxCommitsPerResource) := by
  have siblingsNodup : (commitsOf repository key).Nodup :=
    (List.Nodup.of_map _ idsNodup).filter _
  have retained_iff : commit ∈ repository.commits → commit.resourceKey = key →
      (commit.id ∈ ((collaborationCommits dateParse repository key).take
        maxCommitsPerResource).map CollaborationCommit.id ↔
        rank (fun commit => -dateParse commit.createdAt) (commitsOf repository key) commit <
          maxCommitsPerResource) := by
    intro commitMem keyEq
    have siblingMem : commit ∈ commitsOf repository key := mem_commitsOf.mpr ⟨commitMem, keyEq⟩
    rw [← mem_take_stableSort_iff siblingsNodup siblingMem, List.mem_map]
    constructor
    · rintro ⟨other, otherMem, idEq⟩
      have otherSibling : other ∈ commitsOf repository key :=
        (stableSort_perm _ _).mem_iff.mp (List.mem_of_mem_take otherMem)
      rw [← List.inj_on_of_nodup_map idsNodup (mem_commitsOf.mp otherSibling).1 commitMem idEq]
      exact otherMem
    · exact fun taken => ⟨commit, taken, rfl⟩
  simp only [pruneCommits, List.mem_filter, decide_eq_true_eq]
  constructor
  · rintro ⟨commitMem, kept⟩
    refine ⟨commitMem, fun keyEq => ?_⟩
    exact (retained_iff commitMem keyEq).mp (kept.resolve_left (not_not.mpr keyEq))
  · rintro ⟨commitMem, kept⟩
    refine ⟨commitMem, ?_⟩
    by_cases keyEq : commit.resourceKey = key
    · exact Or.inr ((retained_iff commitMem keyEq).mpr (kept keyEq))
    · exact Or.inl keyEq

theorem pruneCommits_of_length_le {repository : CollaborationRepository} {key : String}
    (few : (commitsOf repository key).length ≤ maxCommitsPerResource) :
    pruneCommits dateParse repository key = repository := by
  have allTaken : (collaborationCommits dateParse repository key).take maxCommitsPerResource =
      collaborationCommits dateParse repository key := by
    apply List.take_of_length_le
    rw [collaborationCommits, (stableSort_perm _ _).length_eq]
    exact few
  have allKept : repository.commits.filter (fun commit =>
      decide (commit.resourceKey ≠ key ∨
        commit.id ∈ (collaborationCommits dateParse repository key).map CollaborationCommit.id)) =
      repository.commits := by
    apply List.filter_eq_self.mpr
    intro commit commitMem
    rw [decide_eq_true_eq, or_iff_not_imp_left, not_not]
    intro keyEq
    apply List.mem_map_of_mem
    exact (stableSort_perm _ _).mem_iff.mpr (mem_commitsOf.mpr ⟨commitMem, keyEq⟩)
  rw [pruneCommits, allTaken, allKept]

/-- A commit with a new id. -/
structure Fresh (repository : CollaborationRepository) (commit : CollaborationCommit) : Prop where
  unused : commit.id ∉ repository.commits.map CollaborationCommit.id
  nonempty : commit.id ≠ ""

theorem pushCommit_ids_nodup {repository : CollaborationRepository} (sound : repository.Sound)
    {commit : CollaborationCommit} (fresh : Fresh repository commit) :
    ((pushCommit repository commit).commits.map CollaborationCommit.id).Nodup := by
  simp only [pushCommit, List.map_append, List.map_singleton]
  rw [← List.concat_eq_append, List.nodup_concat]
  exact ⟨fresh.unused, sound.idsNodup⟩

theorem mem_addCommit_commits {repository : CollaborationRepository} (sound : repository.Sound)
    {commit : CollaborationCommit} (fresh : Fresh repository commit)
    {other : CollaborationCommit} :
    other ∈ (addCommit dateParse repository commit).commits ↔
      (other ∈ repository.commits ∨ other = commit) ∧
        (other.resourceKey = commit.resourceKey →
          rank (fun commit => -dateParse commit.createdAt)
            (commitsOf repository commit.resourceKey ++ [commit]) other <
              maxCommitsPerResource) := by
  have siblings : commitsOf (pushCommit repository commit) commit.resourceKey =
      commitsOf repository commit.resourceKey ++ [commit] := by
    simp [commitsOf, pushCommit]
  rw [addCommit, mem_pruneCommits_iff (pushCommit_ids_nodup sound fresh), siblings]
  simp [pushCommit]

theorem addCommit_branches (repository : CollaborationRepository) (commit : CollaborationCommit) :
    (addCommit dateParse repository commit).branches = (pushCommit repository commit).branches :=
  rfl

theorem addCommit_sound (dateParse : String → ℤ) {repository : CollaborationRepository}
    (sound : repository.Sound) {commit : CollaborationCommit} (fresh : Fresh repository commit) :
    (addCommit dateParse repository commit).Sound where
  idsNodup := by
    apply List.Nodup.sublist _ (pushCommit_ids_nodup sound fresh)
    exact List.Sublist.map _ List.filter_sublist
  idsNonempty := by
    intro other otherMem
    rcases ((mem_addCommit_commits sound fresh).mp otherMem).1 with otherMem | rfl
    · exact sound.idsNonempty other otherMem
    · exact fresh.nonempty
  namesNodup := pushCommit_names_nodup sound commit

/-- Adding a commit of one resource leaves the commits of the others. -/
theorem commitsOf_addCommit_of_ne {repository : CollaborationRepository}
    {commit : CollaborationCommit} {key : String} (different : key ≠ commit.resourceKey) :
    commitsOf (addCommit dateParse repository commit) key = commitsOf repository key := by
  simp only [commitsOf, addCommit, pruneCommits, pushCommit, List.filter_filter]
  rw [List.filter_append, List.filter_cons_of_neg (by simp [different.symm]), List.filter_nil,
    List.append_nil]
  apply List.filter_congr
  intro other _
  by_cases keyEq : other.resourceKey = key
  · simp [keyEq, different]
  · simp [keyEq]

theorem collaborationBranches_addCommit_of_ne {repository : CollaborationRepository}
    {commit : CollaborationCommit} {key : String} (different : key ≠ commit.resourceKey) :
    collaborationBranches (addCommit dateParse repository commit) key =
      collaborationBranches repository key := by
  rw [collaborationBranches, addCommit_branches, pushCommit]
  dsimp only
  split
  · exact setBranchHead_filter _ different _ _ _
  · rw [List.filter_append, List.filter_cons_of_neg (by simp [different.symm]), List.filter_nil,
      List.append_nil]
    rfl

/-- Commits and branches do not depend on how a commit of `commitCollaborationResources`
changes the active branches. -/
theorem addResourceCommit_parts (dateParse : String → ℤ)
    (repository : CollaborationRepository) (commit : CollaborationCommit) :
    (addResourceCommit dateParse repository commit).commits =
        (addCommit dateParse repository commit).commits ∧
      (addResourceCommit dateParse repository commit).branches =
        (addCommit dateParse repository commit).branches := by
  unfold addResourceCommit
  dsimp only
  split
  · exact ⟨rfl, rfl⟩
  · exact ⟨rfl, rfl⟩

/-! ## The commits that a command makes -/

/-- The commits that are due for resources in a repository that they do not change for
one another. -/
def resourceCommits (workspace : Workspace) (repository : CollaborationRepository)
    (actor message : String) (now identifier : ℕ → String) :
    ℕ → List String → List CollaborationCommit
  | _, [] => []
  | made, key :: keys =>
      match (collaborationResourceSnapshot workspace key).toOption.bind
          (nextCommit repository key actor message (now made) (identifier made)) with
      | none => resourceCommits workspace repository actor message now identifier made keys
      | some commit =>
          commit :: resourceCommits workspace repository actor message now identifier
            (made + 1) keys

/-- The commits that a command makes, if it is not rejected. -/
def dueCommits (ids : CommitIds) (session : Session) :
    CollaborationCommand → List CollaborationCommit
  | .commit workspace keys actor message now =>
      resourceCommits workspace session.repository actor (trim message) now
        (fun made => ids.identifier (session.drawn + made)) 0 (keys.eraseDups.take 100)
  | .resolveMerge _ plan resolutions actor message now =>
      match applyResolutions resolutions plan.mergedSnapshot plan.conflicts with
      | .ok snapshot => [mergeCommit plan snapshot actor message now (ids.identifier session.drawn)]
      | .error _ => []
  | .restore _ commitId actor now =>
      (findCommit session.repository commitId).toList.map fun historical =>
        restoringCommit session.repository historical actor now (ids.identifier session.drawn)
  | _ => []

section ResourceCommits

variable {workspace : Workspace} {repository : CollaborationRepository} {actor message : String}
  {now identifier : ℕ → String}

theorem nextCommit_spec {key createdAt id : String} {snapshot : Json}
    {commit : CollaborationCommit}
    (isNext : nextCommit repository key actor message createdAt id snapshot = some commit) :
    commit.resourceKey = key ∧ commit.id = id ∧ commit.createdAt = createdAt ∧
      commit.branch = activeCollaborationBranch repository key ∧ commit.snapshot = snapshot := by
  unfold nextCommit at isNext
  dsimp only at isNext
  split at isNext
  · simp at isNext
  · cases isNext
    exact ⟨rfl, rfl, rfl, rfl, rfl⟩

theorem resourceCommits_ids (made : ℕ) (keys : List String) :
    (resourceCommits workspace repository actor message now identifier made keys).map
        CollaborationCommit.id =
      (List.range' made (resourceCommits workspace repository actor message now identifier made
        keys).length).map identifier := by
  induction keys generalizing made with
  | nil => rfl
  | cons key keys ih =>
      unfold resourceCommits
      split
      · exact ih made
      · rename_i commit isNext
        rcases Option.bind_eq_some_iff.mp isNext with ⟨snapshot, _, isNext⟩
        rw [List.map_cons, List.length_cons, List.range'_succ, List.map_cons, ih (made + 1),
          (nextCommit_spec isNext).2.1]

theorem resourceCommits_keys_sublist (made : ℕ) (keys : List String) :
    ((resourceCommits workspace repository actor message now identifier made keys).map
      CollaborationCommit.resourceKey).Sublist keys := by
  induction keys generalizing made with
  | nil => exact List.Sublist.slnil
  | cons key keys ih =>
      unfold resourceCommits
      split
      · exact (ih made).cons key
      · rename_i commit isNext
        rcases Option.bind_eq_some_iff.mp isNext with ⟨snapshot, _, isNext⟩
        rw [List.map_cons, (nextCommit_spec isNext).1]
        exact (ih (made + 1)).cons_cons key

/-- The commits due for resources are the same where the next commit of each is. -/
theorem resourceCommits_congr {other : CollaborationRepository} (workspace : Workspace)
    (now identifier : ℕ → String) (made : ℕ) {keys : List String}
    (same : ∀ key ∈ keys, nextCommit other key actor message =
      nextCommit repository key actor message) :
    resourceCommits workspace other actor message now identifier made keys =
      resourceCommits workspace repository actor message now identifier made keys := by
  induction keys generalizing made with
  | nil => rfl
  | cons key keys ih =>
      have rest := fun made => ih made fun key keyMem => same key (List.mem_cons_of_mem _ keyMem)
      unfold resourceCommits
      rw [same key List.mem_cons_self]
      simp only [rest]

end ResourceCommits

/-! ## Heads that are there -/

/-- The head of a branch is a commit of its resource. -/
def HeadRetained (repository : CollaborationRepository) (branch : CollaborationBranch) : Prop :=
  branch.headCommitId ≠ "" →
    ∃ commit ∈ repository.commits,
      commit.id = branch.headCommitId ∧ commit.resourceKey = branch.resourceKey

def HeadsRetainedOf (repository : CollaborationRepository) (key : String) : Prop :=
  ∀ branch ∈ collaborationBranches repository key, HeadRetained repository branch

theorem headCommit_of_retained {repository : CollaborationRepository} (sound : repository.Sound)
    {branch : CollaborationBranch} (hasHead : branch.headCommitId ≠ "")
    (retained : HeadRetained repository branch) :
    ∃ commit ∈ commitsOf repository branch.resourceKey, commit.id = branch.headCommitId ∧
      headCommit repository branch = some commit := by
  rcases retained hasHead with ⟨commit, commitMem, idEq, keyEq⟩
  refine ⟨commit, mem_commitsOf.mpr ⟨commitMem, keyEq⟩, idEq, ?_⟩
  rw [headCommit, if_neg hasHead, ← idEq]
  exact sound.findCommit_eq commitMem

/-- Branch heads that are there are found alike in repositories that agree on the resource. -/
theorem branchHead_congr {repository other : CollaborationRepository} {key : String}
    (sound : repository.Sound) (otherSound : other.Sound)
    (retained : HeadsRetainedOf repository key)
    (sameCommits : commitsOf other key = commitsOf repository key)
    (sameBranches : collaborationBranches other key = collaborationBranches repository key)
    (name : String) : branchHead other key name = branchHead repository key name := by
  unfold branchHead
  rw [findBranch_eq, findBranch_eq, sameBranches]
  cases found : (collaborationBranches repository key).find? fun branch => branch.name = name with
  | none => rfl
  | some branch =>
      have branchMem := List.mem_of_find?_eq_some found
      have branchKey := (mem_collaborationBranches.mp branchMem).2
      simp only [Option.bind_some]
      by_cases noHead : branch.headCommitId = ""
      · rw [headCommit, headCommit, if_pos noHead, if_pos noHead]
      · rcases headCommit_of_retained sound noHead (retained branch branchMem) with
          ⟨commit, commitMem, idEq, isHead⟩
        rw [branchKey, ← sameCommits] at commitMem
        rw [isHead, headCommit, if_neg noHead, ← idEq]
        exact otherSound.findCommit_eq (mem_commitsOf.mp commitMem).1

theorem lookup_setActiveBranch_of_ne (activeBranches : List (String × String)) {key other : String}
    (different : other ≠ key) (name : String) :
    (setActiveBranch activeBranches key name).lookup other = activeBranches.lookup other := by
  have replaced : (activeBranches.map fun entry =>
      if entry.1 = key then (key, name) else entry).lookup other = activeBranches.lookup other := by
    induction activeBranches with
    | nil => rfl
    | cons first rest ih =>
        rw [List.map_cons, Json.lookup_cons_ite, Json.lookup_cons_ite, ih]
        by_cases isKey : first.1 = key
        · rw [if_pos isKey, if_neg different, if_neg (isKey ▸ different)]
        · rw [if_neg isKey]
  unfold setActiveBranch
  split
  · exact replaced
  · rw [List.lookup_append]
    have notSet : List.lookup other [(key, name)] = none := by
      rw [Json.lookup_cons_ite, if_neg different]
      rfl
    rw [notSet, Option.or_none]

theorem lookup_setActiveBranch (activeBranches : List (String × String)) (key name : String) :
    (setActiveBranch activeBranches key name).lookup key = some name := by
  have replaced : key ∈ activeBranches.map Prod.fst → (activeBranches.map fun entry =>
      if entry.1 = key then (key, name) else entry).lookup key = some name := by
    induction activeBranches with
    | nil => simp
    | cons first rest ih =>
        intro keyMem
        rw [List.map_cons, Json.lookup_cons_ite]
        by_cases isKey : first.1 = key
        · rw [if_pos isKey, if_pos rfl]
        · rw [if_neg isKey, if_neg (Ne.symm isKey)]
          apply ih
          rcases List.mem_cons.mp keyMem with same | restMem
          · exact absurd same.symm isKey
          · exact restMem
  unfold setActiveBranch
  split
  · rename_i keyMem
    exact replaced keyMem
  · rename_i notMem
    have notSet : activeBranches.lookup key = none := by
      rw [List.lookup_eq_none_iff]
      intro entry entryMem
      have different : key ≠ entry.1 := fun same =>
        notMem (List.mem_map.mpr ⟨entry, entryMem, same.symm⟩)
      simpa using different
    rw [List.lookup_append, notSet, Json.lookup_cons_ite, if_pos rfl]
    rfl

theorem addResourceCommit_activeBranches (repository : CollaborationRepository)
    (commit : CollaborationCommit) :
    (addResourceCommit dateParse repository commit).activeBranches =
      if (findBranch repository commit.resourceKey commit.branch).isSome then
        repository.activeBranches
      else setActiveBranch repository.activeBranches commit.resourceKey commit.branch := by
  unfold addResourceCommit
  dsimp only
  split
  · rfl
  · rfl

theorem activeCollaborationBranch_addResourceCommit_of_ne {repository : CollaborationRepository}
    {commit : CollaborationCommit} {key : String} (different : key ≠ commit.resourceKey) :
    activeCollaborationBranch (addResourceCommit dateParse repository commit) key =
      activeCollaborationBranch repository key := by
  have sameLookup : (addResourceCommit dateParse repository commit).activeBranches.lookup key =
      repository.activeBranches.lookup key := by
    rw [addResourceCommit_activeBranches]
    split
    · rfl
    · exact lookup_setActiveBranch_of_ne _ different _
  rw [activeCollaborationBranch, activeCollaborationBranch, sameLookup]

theorem addResourceCommit_sound (dateParse : String → ℤ)
    {repository : CollaborationRepository} (sound : repository.Sound)
    {commit : CollaborationCommit} (fresh : Fresh repository commit) :
    (addResourceCommit dateParse repository commit).Sound := by
  rcases addResourceCommit_parts dateParse repository commit with
    ⟨sameCommits, sameBranches⟩
  have added := addCommit_sound dateParse sound fresh
  refine ⟨?_, ?_, ?_⟩
  · rw [sameCommits]
    exact added.idsNodup
  · rw [sameCommits]
    exact added.idsNonempty
  · rw [sameBranches]
    exact added.namesNodup

/-- What a commit of one resource leaves for another one. -/
theorem addResourceCommit_of_ne (dateParse : String → ℤ)
    (repository : CollaborationRepository) {commit : CollaborationCommit} {key : String}
    (different : key ≠ commit.resourceKey) :
    commitsOf (addResourceCommit dateParse repository commit) key = commitsOf repository key ∧
      collaborationBranches (addResourceCommit dateParse repository commit) key =
        collaborationBranches repository key := by
  rcases addResourceCommit_parts dateParse repository commit with
    ⟨sameCommits, sameBranches⟩
  constructor
  · rw [commitsOf, sameCommits]
    exact commitsOf_addCommit_of_ne different
  · rw [collaborationBranches, sameBranches]
    exact collaborationBranches_addCommit_of_ne different

/-- Committing one resource does not change what is due for the others. -/
theorem nextCommit_addResourceCommit_of_ne (dateParse : String → ℤ)
    {repository : CollaborationRepository} (sound : repository.Sound)
    {commit : CollaborationCommit} (fresh : Fresh repository commit)
    {key : String} (different : key ≠ commit.resourceKey)
    (retained : HeadsRetainedOf repository key) (actor message : String) :
    nextCommit (addResourceCommit dateParse repository commit) key actor message =
      nextCommit repository key actor message := by
  rcases addResourceCommit_of_ne dateParse repository different with
    ⟨sameCommits, sameBranches⟩
  funext createdAt id snapshot
  simp only [nextCommit, activeCollaborationBranch_addResourceCommit_of_ne different,
    branchHead_congr sound (addResourceCommit_sound dateParse sound fresh) retained sameCommits
      sameBranches]

/-- Heads are retained alike in repositories that agree on the resource. -/
theorem headsRetainedOf_congr {repository other : CollaborationRepository} {key : String}
    (sameCommits : commitsOf other key = commitsOf repository key)
    (sameBranches : collaborationBranches other key = collaborationBranches repository key) :
    HeadsRetainedOf other key ↔ HeadsRetainedOf repository key := by
  have retained_iff : ∀ branch ∈ collaborationBranches repository key,
      (HeadRetained other branch ↔ HeadRetained repository branch) := by
    intro branch branchMem
    have branchKey := (mem_collaborationBranches.mp branchMem).2
    have inCommits : ∀ commit, (commit ∈ other.commits ∧ commit.resourceKey = key ↔
        commit ∈ repository.commits ∧ commit.resourceKey = key) := by
      intro commit
      rw [← mem_commitsOf, ← mem_commitsOf, sameCommits]
    simp only [HeadRetained, branchKey]
    refine imp_congr_right fun _ => exists_congr fun commit => ?_
    rw [and_left_comm, inCommits commit, and_left_comm]
  unfold HeadsRetainedOf
  rw [sameBranches]
  exact forall₂_congr retained_iff

/-- `commitCollaborationResources` adds the commits that are due in the repository before. -/
theorem commitResources_eq {workspace : Workspace} {actor message : String}
    {now identifier : ℕ → String} {keys : List String} (keysNodup : keys.Nodup)
    (injective : Function.Injective identifier) (nonempty : ∀ n, identifier n ≠ "")
    {repository : CollaborationRepository} {made : ℕ} (sound : repository.Sound)
    (unused : ∀ n, made ≤ n → identifier n ∉ repository.commits.map CollaborationCommit.id)
    (retained : ∀ key ∈ keys, HeadsRetainedOf repository key)
    {result : CollaborationRepository × List CollaborationCommit}
    (ok : commitResources dateParse workspace actor message now identifier repository made keys =
      .ok result) :
    result.2 = resourceCommits workspace repository actor message now identifier made keys ∧
      result.1 = result.2.foldl (addResourceCommit dateParse) repository := by
  induction keys generalizing repository made result with
  | nil =>
      cases ok
      exact ⟨rfl, rfl⟩
  | cons key keys ih =>
      rw [List.nodup_cons] at keysNodup
      have restRetained := fun other otherMem => retained other (List.mem_cons_of_mem _ otherMem)
      cases snapshotOk : collaborationResourceSnapshot workspace key with
      | error => simp [commitResources, snapshotOk] at ok
      | ok snapshot =>
        cases isNext : nextCommit repository key actor message (now made) (identifier made)
            snapshot with
        | none =>
          simp only [commitResources, snapshotOk, isNext] at ok
          simp only [resourceCommits, snapshotOk, Except.toOption, Option.bind_some, isNext]
          exact ih keysNodup.2 sound unused restRetained ok
        | some commit =>
          simp only [commitResources, snapshotOk, isNext] at ok
          rcases nextCommit_spec isNext with ⟨keyEq, idEq, _, _⟩
          have fresh : Fresh repository commit :=
            ⟨by rw [idEq]; exact unused made le_rfl, by rw [idEq]; exact nonempty made⟩
          have otherKey : ∀ other ∈ keys, other ≠ commit.resourceKey := by
            rintro other otherMem rfl
            exact keysNodup.1 (keyEq ▸ otherMem)
          have stillUnused : ∀ n, made + 1 ≤ n → identifier n ∉
              (addResourceCommit dateParse repository commit).commits.map
                CollaborationCommit.id := by
            intro n later idMem
            rw [(addResourceCommit_parts _ _ _).1, List.mem_map] at idMem
            rcases idMem with ⟨other, otherMem, otherId⟩
            rcases ((mem_addCommit_commits sound fresh).mp otherMem).1 with otherMem | rfl
            · exact unused n (by omega) (List.mem_map.mpr ⟨other, otherMem, otherId⟩)
            · have same := injective (idEq.symm.trans otherId)
              omega
          have stillRetained : ∀ other ∈ keys,
              HeadsRetainedOf (addResourceCommit dateParse repository commit) other := by
            intro other otherMem
            rcases addResourceCommit_of_ne dateParse repository (otherKey other otherMem) with
              ⟨sameCommits, sameBranches⟩
            exact (headsRetainedOf_congr sameCommits sameBranches).mpr (restRetained other otherMem)
          rcases map_eq_ok.mp ok with ⟨rest, restOk, rfl⟩
          rcases ih keysNodup.2 (addResourceCommit_sound dateParse sound fresh) stillUnused
            stillRetained restOk with ⟨restCommits, restRepository⟩
          have sameDue := resourceCommits_congr workspace now identifier (made + 1)
            fun other otherMem =>
              nextCommit_addResourceCommit_of_ne dateParse sound fresh
                (otherKey other otherMem) (restRetained other otherMem) actor message
          refine ⟨?_, restRepository⟩
          simp only [resourceCommits, snapshotOk, Except.toOption, Option.bind_some, isNext]
          rw [restCommits, sameDue]

/-! ## What a command can do -/

theorem createCollaborationBranch_cases {repository after : CollaborationRepository}
    {key name now : String} (ok : createCollaborationBranch repository key name now = .ok after) :
    isBranchName (trim name) ∧
      (∀ branch ∈ collaborationBranches repository key,
        toLowerCase branch.name ≠ toLowerCase (trim name)) ∧
      (collaborationBranches repository key).length < maxBranchesPerResource ∧
      after = { repository with
        activeBranches := setActiveBranch repository.activeBranches key (trim name)
        branches := repository.branches ++
          [{ resourceKey := key
             name := trim name
             headCommitId := ((branchHead repository key
               (activeCollaborationBranch repository key)).map CollaborationCommit.id).getD ""
             createdAt := now
             updatedAt := now }] } := by
  unfold createCollaborationBranch at ok
  dsimp only at ok
  split at ok
  · simp at ok
  · rename_i safeName
    split at ok
    · simp at ok
    · rename_i newName
      split at ok
      · simp at ok
      · rename_i room
        cases ok
        refine ⟨not_not.mp safeName, ?_, not_le.mp room, rfl⟩
        exact fun branch branchMem sameName => newName ⟨branch, branchMem, sameName⟩

theorem checkoutCollaborationBranch_cases {workspace : Workspace}
    {repository : CollaborationRepository} {key name : String}
    {result : Workspace × CollaborationRepository}
    (ok : checkoutCollaborationBranch workspace repository key name = .ok result) :
    ∃ branch, findBranch repository key name = some branch ∧
      (match headCommit repository branch with
        | some head => applyCollaborationSnapshot workspace key head.snapshot = .ok result.1
        | none => result.1 = workspace) ∧
      result.2 = { repository with
        activeBranches := setActiveBranch repository.activeBranches key name } := by
  unfold checkoutCollaborationBranch at ok
  split at ok
  · simp at ok
  · rename_i branch found
    refine ⟨branch, found, ?_⟩
    dsimp only at ok
    cases isHead : headCommit repository branch with
    | none =>
        rw [isHead] at ok
        cases ok
        exact ⟨rfl, rfl⟩
    | some head =>
        rw [isHead] at ok
        rcases map_eq_ok.mp ok with ⟨applied, appliedOk, rfl⟩
        exact ⟨appliedOk, rfl⟩

theorem deleteCollaborationBranch_cases {repository after : CollaborationRepository}
    {key name : String} (ok : deleteCollaborationBranch repository key name = .ok after) :
    name ≠ "main" ∧ activeCollaborationBranch repository key ≠ name ∧
      after = { repository with
        branches := repository.branches.filter fun branch =>
          decide (branch.resourceKey ≠ key ∨ branch.name ≠ name) } := by
  unfold deleteCollaborationBranch at ok
  split at ok
  · simp at ok
  · rename_i notMain
    split at ok
    · simp at ok
    · rename_i notActive
      split at ok
      · simp at ok
      · cases ok
        exact ⟨notMain, notActive, rfl⟩

theorem resolveCollaborationBranchMerge_cases {workspace : Workspace}
    {repository : CollaborationRepository} {plan : CollaborationMergePlan}
    {resolutions : List (String × Json)} {actor message now identifier : String}
    {result : Workspace × CollaborationRepository × CollaborationCommit}
    (ok : resolveCollaborationBranchMerge dateParse workspace repository plan resolutions actor
      message now identifier = .ok result) :
    ∃ snapshot, applyResolutions resolutions plan.mergedSnapshot plan.conflicts = .ok snapshot ∧
      (∃ branch, findBranch repository plan.resourceKey plan.targetBranch = some branch ∧
        branch.headCommitId = plan.targetHeadId) ∧
      applyCollaborationSnapshot workspace plan.resourceKey snapshot = .ok result.1 ∧
      result.2.1 = addCommit dateParse repository
        (mergeCommit plan snapshot actor message now identifier) := by
  unfold resolveCollaborationBranchMerge at ok
  split at ok
  · simp at ok
  · rename_i snapshot resolved
    dsimp only at ok
    split at ok
    · rename_i unchanged
      refine ⟨snapshot, resolved, ?_, ?_⟩
      · rw [Option.any_eq_true] at unchanged
        simpa using unchanged
      · rcases map_eq_ok.mp ok with ⟨applied, appliedOk, rfl⟩
        exact ⟨appliedOk, rfl⟩
    · simp at ok

theorem restoreCollaborationCommit_cases {workspace : Workspace}
    {repository : CollaborationRepository} {commitId actor now identifier : String}
    {result : Workspace × CollaborationRepository × CollaborationCommit}
    (ok : restoreCollaborationCommit dateParse workspace repository commitId actor now identifier =
      .ok result) :
    ∃ historical, findCommit repository commitId = some historical ∧
      applyCollaborationSnapshot workspace historical.resourceKey historical.snapshot =
        .ok result.1 ∧
      result.2.1 = addCommit dateParse repository
        (restoringCommit repository historical actor now identifier) := by
  unfold restoreCollaborationCommit at ok
  split at ok
  · simp at ok
  · rename_i historical found
    rcases map_eq_ok.mp ok with ⟨applied, appliedOk, rfl⟩
    exact ⟨historical, found, appliedOk, rfl⟩

/-- The branch of an added commit has it at its head, if the commit is kept. -/
theorem branchHead_addCommit (dateParse : String → ℤ) {repository : CollaborationRepository}
    (sound : repository.Sound) {commit : CollaborationCommit} (fresh : Fresh repository commit) :
    branchHead (addCommit dateParse repository commit) commit.resourceKey commit.branch =
      if commit ∈ (addCommit dateParse repository commit).commits then some commit else none := by
  have found : (findBranch (addCommit dateParse repository commit) commit.resourceKey
      commit.branch).isSome := by
    rcases exists_pushed_branch sound commit with ⟨branch, branchMem, keyEq, nameEq, _⟩
    exact findBranch_isSome_iff.mpr ⟨branch, branchMem, keyEq, nameEq⟩
  rcases Option.isSome_iff_exists.mp found with ⟨branch, branchFound⟩
  rcases findBranch_spec branchFound with ⟨branchMem, keyEq, nameEq⟩
  have headEq : branch.headCommitId = commit.id := by
    rcases mem_pushCommit_branches sound commit branchMem with ⟨_, other⟩ | isPushed
    · exact absurd ⟨keyEq, nameEq⟩ other
    · exact isPushed.2.2
  rw [branchHead, branchFound, Option.bind_some, headCommit, headEq, if_neg fresh.nonempty]
  split
  · rename_i kept
    exact (addCommit_sound dateParse sound fresh).findCommit_eq kept
  · rename_i dropped
    cases other : findCommit (addCommit dateParse repository commit) commit.id with
    | none => rfl
    | some found =>
        rcases findCommit_spec other with ⟨foundMem, idEq⟩
        rcases ((mem_addCommit_commits sound fresh).mp foundMem).1 with earlier | rfl
        · exact absurd (List.mem_map.mpr ⟨found, earlier, idEq⟩) fresh.unused
        · exact absurd foundMem dropped

/-! ## A workspace with one design -/

/-- The ids `c`, `cc`, `ccc` and so on. -/
def countedIds : CommitIds where
  identifier n := String.ofList (List.replicate (n + 1) 'c')
  injective := by
    intro first second same
    have lengths := congrArg List.length (String.ofList_injective same)
    simpa using lengths
  nonempty n := by
    intro empty
    have lengths := congrArg List.length (String.ofList_injective empty)
    simp at lengths

def firstDay : String := "2026-01-01T00:00:00.000Z"

def secondDay : String := "2026-01-02T00:00:00.000Z"

/-- The times of two days, in milliseconds. -/
def parseDay (text : String) : ℤ :=
  if text = firstDay then 1767225600000 else 1767312000000

def shopDesign (spec : String) : Json :=
  .obj [("id", .str "shop"), ("spec", .str spec)]

def shopSnapshot (spec : String) : Json :=
  .obj [("apiDesign", shopDesign spec)]

def shopKey : String := "api-design:shop"

def shopWorkspace (spec : String) : Workspace where
  collections := []
  environments := []
  apiDesigns := [shopDesign spec]
  mockServers := []
  mcpClients := []
  testSuites := []
  content := .obj []

end Brunomnia.Collaboration
