import Brunomnia.Collaboration.MergeLaws

/-!
# Merging a branch again

A resolved merge makes a commit whose parents are the heads of both branches. While the merged
branch stays where it is, its head is nearer to both than every other common ancestor, so the
next plan takes it as the base and finds nothing to merge.
-/

namespace Brunomnia.Collaboration

open Brunomnia.Library Json

section Heads

variable {repository : CollaborationRepository} {mineId theirsId : String}

/-- A parent of the first head is the base with itself, unless the first head is an ancestor of
it in turn. -/
theorem mergeBase_of_parent (hasMine : mineId ≠ "") (hasTheirs : theirsId ≠ "")
    (isParent : theirsId ∈ parentsOf repository mineId)
    (notBelow : ¬ IsAncestor repository theirsId mineId) :
    mergeBase repository mineId theirsId = theirsId := by
  refine (mergeBase_eq_iff hasMine hasTheirs hasTheirs).mpr
    ⟨⟨Relation.ReflTransGen.single isParent, Relation.ReflTransGen.refl⟩, ?_⟩
  rintro other ⟨ofMine, ofTheirs⟩ ⟨otherMine, otherTheirs, parentMine, itself, fromMine, fromTheirs,
    first, firstItself, before⟩
  by_cases same : other = theirsId
  · subst same
    rw [fromMine.unique first, fromTheirs.unique firstItself] at before
    simp at before
  · have farther := fromMine.length_pos fun isMine => notBelow (isMine ▸ ofTheirs)
    have farTheirs := fromTheirs.length_pos same
    have near := first.length_le_one isParent
    rw [firstItself.unique FirstRoute.refl, List.length_nil] at before
    omega

end Heads

section Added

variable {dateParse : String → ℤ} {repository : CollaborationRepository}
  {commit head : CollaborationCommit}

theorem find?_setBranchHead_of_ne {name other : String} (different : other ≠ name)
    (branches : List CollaborationBranch) (key otherKey headCommitId updatedAt : String) :
    ((setBranchHead branches key name headCommitId updatedAt).find? fun candidate =>
        candidate.resourceKey = otherKey ∧ candidate.name = other) =
      branches.find? fun candidate =>
        candidate.resourceKey = otherKey ∧ candidate.name = other := by
  induction branches with
  | nil => rfl
  | cons branch rest ih =>
      unfold setBranchHead
      split
      · rename_i named
        have notOther : branch.name ≠ other := fun same => different (same.symm.trans named.2)
        rw [List.find?_cons_of_neg (by simp [notOther]),
          List.find?_cons_of_neg (by simp [notOther])]
      · rw [List.find?_cons, List.find?_cons, ih]

/-- Adding a commit on one branch leaves the branches with other names. -/
theorem findBranch_addCommit_of_ne {name : String} (other : name ≠ commit.branch) (key : String) :
    findBranch (addCommit dateParse repository commit) key name =
      findBranch repository key name := by
  rw [findBranch, addCommit_branches, pushCommit]
  dsimp only
  split
  · exact find?_setBranchHead_of_ne other _ _ _ _ _
  · rw [List.find?_append, List.find?_cons_of_neg (by simp [other.symm]), List.find?_nil,
      Option.or_none, findBranch]

theorem findCommit_addCommit (sound : repository.Sound) (fresh : Fresh repository commit)
    (headMem : head ∈ repository.commits)
    (kept : (findCommit (addCommit dateParse repository commit) head.id).isSome) :
    findCommit (addCommit dateParse repository commit) head.id = some head := by
  rcases Option.isSome_iff_exists.mp kept with ⟨found, foundEq⟩
  rcases findCommit_spec foundEq with ⟨foundMem, idEq⟩
  rw [foundEq]
  rcases ((mem_addCommit_commits sound fresh).mp foundMem).1 with earlier | rfl
  · rw [List.inj_on_of_nodup_map sound.idsNodup earlier headMem idEq]
  · exact absurd (List.mem_map.mpr ⟨head, headMem, idEq.symm⟩) fresh.unused

theorem branchHead_addCommit_of_ne (sound : repository.Sound) (fresh : Fresh repository commit)
    {key name : String} (other : name ≠ commit.branch)
    (isHead : branchHead repository key name = some head)
    (kept : (findCommit (addCommit dateParse repository commit) head.id).isSome) :
    branchHead (addCommit dateParse repository commit) key name = some head := by
  rcases Option.bind_eq_some_iff.mp isHead with ⟨branch, found, headEq⟩
  rw [branchHead, findBranch_addCommit_of_ne other, found, Option.bind_some, headCommit]
  unfold headCommit at headEq
  split at headEq
  · simp at headEq
  · rename_i hasHead
    rcases findCommit_spec headEq with ⟨headMem, idEq⟩
    rw [if_neg hasHead, ← idEq]
    exact findCommit_addCommit sound fresh headMem kept

/-- No earlier commit descends from one that none of them names as a parent. -/
theorem not_isAncestor_added (sound : repository.Sound) (fresh : Fresh repository commit)
    (notParent : ∀ earlier ∈ repository.commits, commit.id ∉ parentIds (some earlier))
    (notOwn : commit.id ∉ parentIds (some commit)) (headMem : head ∈ repository.commits) :
    ¬ IsAncestor (addCommit dateParse repository commit) head.id commit.id := by
  intro isAncestor
  rcases Relation.ReflTransGen.cases_tail isAncestor with same | ⟨child, _, isParent⟩
  · exact fresh.unused (List.mem_map.mpr ⟨head, headMem, same.symm⟩)
  · unfold parentsOf at isParent
    cases found : findCommit (addCommit dateParse repository commit) child with
    | none => simp [found, parentIds] at isParent
    | some other =>
        rw [found] at isParent
        rcases ((mem_addCommit_commits sound fresh).mp (findCommit_spec found).1).1 with
          earlier | rfl
        · exact notParent other earlier isParent
        · exact notOwn isParent

end Added

/-! ## Plans after a merge -/

section Plans

variable {repository : CollaborationRepository} {key sourceBranch : String}
  {plan : CollaborationMergePlan}

theorem planCollaborationBranchMerge_names
    (planned : planCollaborationBranchMerge repository key sourceBranch = .ok plan) :
    plan.resourceKey = key ∧ plan.targetBranch = activeCollaborationBranch repository key ∧
      plan.sourceBranch = sourceBranch ∧ sourceBranch ≠ plan.targetBranch := by
  unfold planCollaborationBranchMerge at planned
  dsimp only at planned
  split at planned
  · simp at planned
  · rename_i different
    split at planned
    · cases planned
      exact ⟨rfl, rfl, rfl, different⟩
    · simp at planned

/-- A resolved merge adds the commit that it makes from the resolved snapshot. -/
theorem resolveCollaborationBranchMerge_made {dateParse : String → ℤ}
    {workspace after : Workspace} {next : CollaborationRepository}
    {actor message now identifier : String} {resolutions : List (String × Json)}
    {commit : CollaborationCommit}
    (resolved : resolveCollaborationBranchMerge dateParse workspace repository plan resolutions
      actor message now identifier = .ok (after, next, commit)) :
    next = addCommit dateParse repository commit ∧
      ∃ snapshot, applyResolutions resolutions plan.mergedSnapshot plan.conflicts = .ok snapshot ∧
        commit = mergeCommit plan snapshot actor message now identifier := by
  unfold resolveCollaborationBranchMerge at resolved
  split at resolved
  · simp at resolved
  · rename_i snapshot applied
    dsimp only at resolved
    split at resolved
    · rcases map_eq_ok.mp resolved with ⟨_, _, same⟩
      cases same
      exact ⟨rfl, snapshot, applied, rfl⟩
    · simp at resolved

/-- The plan for a branch that was just merged: its head is the base, there is no conflict, and
the snapshot is the one of the commit that merged it. -/
def planAfterMerge (plan : CollaborationMergePlan) (commit : CollaborationCommit) :
    CollaborationMergePlan :=
  { plan with
    targetHeadId := commit.id
    baseCommitId := plan.sourceHeadId
    mergedSnapshot := commit.snapshot
    conflicts := [] }

/-- The next plan for a branch that was just merged has nothing to merge, provided that the
heads were not pruned and the id of the merging commit is new. -/
theorem planCollaborationBranchMerge_afterMerge {dateParse : String → ℤ}
    {workspace after : Workspace} {next : CollaborationRepository}
    {actor message now identifier : String} {resolutions : List (String × Json)}
    {commit : CollaborationCommit} (sound : repository.Sound)
    (planned : planCollaborationBranchMerge repository key sourceBranch = .ok plan)
    (resolved : resolveCollaborationBranchMerge dateParse workspace repository plan resolutions
      actor message now identifier = .ok (after, next, commit))
    (hasId : identifier ≠ "")
    (isNew : ∀ earlier ∈ repository.commits,
      identifier ≠ earlier.id ∧ identifier ∉ parentIds (some earlier))
    (targetKept : (findCommit next identifier).isSome)
    (sourceKept : (findCommit next plan.sourceHeadId).isSome) :
    planCollaborationBranchMerge next key sourceBranch = .ok (planAfterMerge plan commit) := by
  rcases planCollaborationBranchMerge_names planned with ⟨keyEq, targetEq, sourceEq, different⟩
  rcases planCollaborationBranchMerge_cases planned with
    ⟨mine, theirs, mineHead, theirsHead, mineId, theirsId, _, _⟩
  rcases resolveCollaborationBranchMerge_made resolved with ⟨rfl, snapshot, _, commitEq⟩
  have commitId : commit.id = identifier := by rw [commitEq]; rfl
  have commitKey : commit.resourceKey = key := by rw [commitEq]; exact keyEq
  have commitBranch : commit.branch = plan.targetBranch := by rw [commitEq]; rfl
  have mineMem := (findCommit_spec (branchHead_spec mineHead).1).1
  rcases branchHead_spec theirsHead with ⟨theirsFound, hasTheirs⟩
  have theirsMem := (findCommit_spec theirsFound).1
  have fresh : Fresh repository commit := by
    refine ⟨fun used => ?_, commitId ▸ hasId⟩
    rcases List.mem_map.mp used with ⟨earlier, earlierMem, same⟩
    exact (isNew earlier earlierMem).1 (commitId.symm.trans same.symm)
  have commitParents : parentIds (some commit) = [mine.id, theirs.id] := by
    have hasMine := (branchHead_spec mineHead).2
    rw [commitEq, ← mineId, ← theirsId] at *
    simp [parentIds, mergeCommit, hasMine, hasTheirs]
  -- The commit is kept, so it is the head of the target branch.
  have commitMem : commit ∈ (addCommit dateParse repository commit).commits := by
    rcases Option.isSome_iff_exists.mp targetKept with ⟨found, foundEq⟩
    rcases findCommit_spec foundEq with ⟨foundMem, idEq⟩
    rcases ((mem_addCommit_commits sound fresh).mp foundMem).1 with earlier | rfl
    · exact absurd idEq.symm (isNew found earlier).1
    · exact foundMem
  have targetHead := branchHead_addCommit dateParse sound fresh
  rw [if_pos commitMem, commitKey, commitBranch, targetEq] at targetHead
  have sourceHead := branchHead_addCommit_of_ne sound fresh (commitBranch ▸ different) theirsHead
    (theirsId ▸ sourceKept)
  have baseEq : mergeBase (addCommit dateParse repository commit) commit.id theirs.id =
      theirs.id := by
    apply mergeBase_of_parent fresh.nonempty hasTheirs
    · rw [parentsOf, (addCommit_sound dateParse sound fresh).findCommit_eq commitMem, commitParents]
      simp
    · apply not_isAncestor_added sound fresh _ _ theirsMem
      · exact fun earlier earlierMem => commitId ▸ (isNew earlier earlierMem).2
      · rw [commitParents, commitId]
        simp [(isNew mine mineMem).1, (isNew theirs theirsMem).1]
  have sameActive : activeCollaborationBranch (addCommit dateParse repository commit) key =
      activeCollaborationBranch repository key := rfl
  rw [planCollaborationBranchMerge, sameActive, ← targetEq, if_neg different, targetEq, targetHead,
    sourceHead]
  dsimp only
  rw [baseEq, if_neg hasTheirs, (branchHead_spec sourceHead).1, Option.map_some, mergeValue_base]
  simp [planAfterMerge, keyEq, ← targetEq, sourceEq, theirsId]

/-- Their design was taken, and merging `feature` again leaves it. -/
theorem divergedPlan_afterMerge : ∃ after next commit,
    resolveCollaborationBranchMerge parseDay (shopWorkspace "v3") divergedSession.repository
      divergedPlan [("/apiDesign/spec", .str "theirs")] "Ada" "" firstDay "cccc" =
        .ok (after, next, commit) ∧
    planCollaborationBranchMerge next shopKey "feature" =
      .ok (planAfterMerge divergedPlan commit) := by
  have kept : (resolveCollaborationBranchMerge parseDay (shopWorkspace "v3")
      divergedSession.repository divergedPlan [("/apiDesign/spec", .str "theirs")] "Ada" ""
      firstDay "cccc").toOption.any (fun result => (findCommit result.2.1 "cccc").isSome &&
        (findCommit result.2.1 divergedPlan.sourceHeadId).isSome) := by
    decide
  cases resolved : resolveCollaborationBranchMerge parseDay (shopWorkspace "v3")
      divergedSession.repository divergedPlan [("/apiDesign/spec", .str "theirs")] "Ada" ""
      firstDay "cccc" with
  | error text => simp [resolved, Except.toOption] at kept
  | ok result =>
      rcases result with ⟨after, next, commit⟩
      rw [resolved] at kept
      have bothKept := Bool.and_eq_true_iff.mp kept
      exact ⟨after, next, commit, rfl, planCollaborationBranchMerge_afterMerge
        ⟨by decide, by decide, by decide⟩ divergedSession_plan resolved (by decide) (by decide)
        bothKept.1 bothKept.2⟩

end Plans

end Brunomnia.Collaboration
