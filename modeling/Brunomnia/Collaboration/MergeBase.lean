import Brunomnia.Collaboration.Session

/-!
# The base of a merge

The base of a merge should be a nearest common ancestor of both heads: merging a
branch that was merged before then changes nothing. The plan selects the common
ancestor with the smallest sum of distances, which is a nearest one exactly when
some nearest common ancestor comes before all others in this order.
-/

namespace Brunomnia.Collaboration

open Brunomnia.Library

/-- A commit id is the id of a head or of an ancestor of the head. -/
def IsAncestor (repository : CollaborationRepository) (head ancestor : String) : Prop :=
  Relation.ReflTransGen (fun id parent => parent ∈ parentsOf repository id) head ancestor

def IsCommonAncestor (repository : CollaborationRepository) (mineId theirsId id : String) : Prop :=
  IsAncestor repository mineId id ∧ IsAncestor repository theirsId id

def IsNearestCommonAncestor (repository : CollaborationRepository)
    (mineId theirsId id : String) : Prop :=
  IsCommonAncestor repository mineId theirsId id ∧
    ∀ other, IsCommonAncestor repository mineId theirsId other → other ≠ id →
      ¬ IsAncestor repository other id

section Ancestors

variable {repository : CollaborationRepository}

theorem parentIds_length_le (commit : Option CollaborationCommit) :
    (parentIds commit).length ≤ 2 := by
  cases commit with
  | none => simp [parentIds]
  | some commit => exact List.length_filter_le _ _

theorem ancestorDistances_searched {startId : String} (hasStart : startId ≠ "") :
    ∃ found, Searched (parentsOf repository) startId found ∧
      ancestorDistances repository startId = withDistances found := by
  rw [ancestorDistances, if_neg hasStart]
  apply search_searched (List.nodup_dedup (repository.commits.map CollaborationCommit.id))
  · intro id hasParents
    rw [List.mem_dedup]
    cases found : findCommit repository id with
    | none => simp [parentsOf, found, parentIds] at hasParents
    | some commit =>
        rcases findCommit_spec found with ⟨commitMem, idEq⟩
        exact List.mem_map.mpr ⟨commit, commitMem, idEq⟩
  · have bounded := List.sum_le_card_nsmul
      ((repository.commits.map CollaborationCommit.id).dedup.map fun id =>
        (parentsOf repository id).length) 2 (by
          intro length lengthMem
          rcases List.mem_map.mp lengthMem with ⟨id, _, rfl⟩
          exact parentIds_length_le _)
    have fewer := (List.dedup_sublist (repository.commits.map CollaborationCommit.id)).length_le
    rw [List.length_map, smul_eq_mul] at bounded
    rw [List.length_map] at fewer
    omega

theorem mem_ancestorDistances {startId : String} (hasStart : startId ≠ "") {id : String} :
    id ∈ (ancestorDistances repository startId).map Prod.fst ↔
      IsAncestor repository startId id := by
  rcases ancestorDistances_searched hasStart with
    ⟨found, searched, distances⟩
  rw [distances, map_fst_withDistances]
  exact searched.mem_iff

theorem IsAncestor.firstRoute {startId id : String} (hasStart : startId ≠ "")
    (ancestor : IsAncestor repository startId id) :
    ∃ route, FirstRoute (parentsOf repository) startId id route := by
  rcases ancestorDistances_searched hasStart with ⟨found, searched, _⟩
  rcases List.mem_map.mp (searched.mem_iff.mpr ancestor) with ⟨entry, entryMem, rfl⟩
  exact ⟨entry.2, searched.first entry entryMem⟩

theorem distanceOf_eq {startId id : String} (hasStart : startId ≠ "") {route : List ℕ}
    (first : FirstRoute (parentsOf repository) startId id route) :
    distanceOf (ancestorDistances repository startId) id = route.length := by
  rcases ancestorDistances_searched hasStart with
    ⟨found, searched, distances⟩
  rw [distanceOf, distances]
  cases recorded : (withDistances found).lookup id with
  | none =>
      rcases List.mem_map.mp (searched.complete id route first.1) with ⟨entry, entryMem, rfl⟩
      have unrecorded := List.lookup_eq_none_iff.mp recorded (entry.1, entry.2.length)
        (List.mem_map_of_mem entryMem)
      simp at unrecorded
  | some distance =>
      rcases List.lookup_eq_some_iff.mp recorded with ⟨earlier, later, listEq, _⟩
      have distanceMem : (id, distance) ∈ withDistances found := by
        rw [listEq]
        exact List.mem_append_right _ List.mem_cons_self
      rcases List.mem_map.mp distanceMem with ⟨entry, entryMem, entryEq⟩
      cases entryEq
      rw [first.unique (searched.first entry entryMem)]
      rfl

variable {mineId theirsId : String}

theorem mem_commonAncestors (hasMine : mineId ≠ "") (hasTheirs : theirsId ≠ "") {id : String} :
    id ∈ commonAncestors (ancestorDistances repository mineId)
        (ancestorDistances repository theirsId) ↔
      IsCommonAncestor repository mineId theirsId id := by
  rw [commonAncestors, List.mem_filter, decide_eq_true_eq, mem_ancestorDistances hasMine,
    mem_ancestorDistances hasTheirs]
  rfl

theorem commonAncestors_nodup (hasMine : mineId ≠ "") :
    (commonAncestors (ancestorDistances repository mineId)
      (ancestorDistances repository theirsId)).Nodup := by
  rcases ancestorDistances_searched hasMine with
    ⟨found, searched, distances⟩
  rw [commonAncestors, distances, map_fst_withDistances]
  exact searched.nodup.filter _

theorem IsAncestor.ne_empty {head ancestor : String}
    (isAncestor : IsAncestor repository head ancestor) (hasHead : head ≠ "") : ancestor ≠ "" := by
  induction isAncestor with
  | refl => exact hasHead
  | tail _ parentMem _ =>
      unfold parentsOf parentIds at parentMem
      split at parentMem
      · simpa using (List.mem_filter.mp parentMem).2
      · simp at parentMem

variable (repository mineId theirsId) in
/-- One common ancestor is selected before another one: its shortest ways from both heads have
a smaller sum of lengths, or the same sum and an earlier first way from the first head. -/
def SelectedBefore (left right : String) : Prop :=
  ∃ leftMine leftTheirs rightMine rightTheirs,
    FirstRoute (parentsOf repository) mineId left leftMine ∧
    FirstRoute (parentsOf repository) theirsId left leftTheirs ∧
    FirstRoute (parentsOf repository) mineId right rightMine ∧
    FirstRoute (parentsOf repository) theirsId right rightTheirs ∧
    (leftMine.length + leftTheirs.length < rightMine.length + rightTheirs.length ∨
      leftMine.length + leftTheirs.length = rightMine.length + rightTheirs.length ∧
        routeKey leftMine < routeKey rightMine)

variable (repository mineId theirsId) in
def NearestSelected : Prop :=
  ∃ near, IsNearestCommonAncestor repository mineId theirsId near ∧
    ∀ far, IsCommonAncestor repository mineId theirsId far →
      ¬ IsNearestCommonAncestor repository mineId theirsId far →
        SelectedBefore repository mineId theirsId near far

theorem commonAncestors_sorted (hasMine : mineId ≠ "") :
    (commonAncestors (ancestorDistances repository mineId)
        (ancestorDistances repository theirsId)).Pairwise fun left right =>
      ∀ leftRoute rightRoute, FirstRoute (parentsOf repository) mineId left leftRoute →
        FirstRoute (parentsOf repository) mineId right rightRoute →
          routeKey leftRoute < routeKey rightRoute := by
  rcases ancestorDistances_searched hasMine with
    ⟨found, searched, distances⟩
  rw [commonAncestors, distances, map_fst_withDistances]
  apply List.Pairwise.filter
  rw [List.pairwise_map]
  refine searched.sorted.imp_of_mem fun leftMem rightMem less => ?_
  intro leftRoute rightRoute leftFirst rightFirst
  rwa [leftFirst.unique (searched.first _ leftMem), rightFirst.unique (searched.first _ rightMem)]

theorem idxOf_commonAncestors_lt_iff (hasMine : mineId ≠ "") (hasTheirs : theirsId ≠ "")
    {left right : String} {leftRoute rightRoute : List ℕ}
    (leftCommon : IsCommonAncestor repository mineId theirsId left)
    (rightCommon : IsCommonAncestor repository mineId theirsId right)
    (leftFirst : FirstRoute (parentsOf repository) mineId left leftRoute)
    (rightFirst : FirstRoute (parentsOf repository) mineId right rightRoute) :
    (commonAncestors (ancestorDistances repository mineId)
        (ancestorDistances repository theirsId)).idxOf left <
      (commonAncestors (ancestorDistances repository mineId)
        (ancestorDistances repository theirsId)).idxOf right ↔
    routeKey leftRoute < routeKey rightRoute := by
  have sorted := List.pairwise_iff_getElem.mp
    (@commonAncestors_sorted repository mineId theirsId hasMine)
  have leftMem := (mem_commonAncestors hasMine hasTheirs).mpr leftCommon
  have rightMem := (mem_commonAncestors hasMine hasTheirs).mpr rightCommon
  generalize commonAncestors _ _ = common at *
  have leftIn := List.idxOf_lt_length_of_mem leftMem
  have rightIn := List.idxOf_lt_length_of_mem rightMem
  constructor
  · intro before
    refine sorted _ _ leftIn rightIn before _ _ ?_ ?_
    · rwa [List.getElem_idxOf]
    · rwa [List.getElem_idxOf]
  · intro less
    rcases lt_trichotomy (common.idxOf left) (common.idxOf right) with before | same | after
    · exact before
    · rw [List.idxOf_inj leftMem] at same
      subst same
      rw [leftFirst.unique rightFirst] at less
      exact absurd less (lt_irrefl _)
    · refine absurd less (lt_asymm (sorted _ _ rightIn leftIn after _ _ ?_ ?_))
      · rwa [List.getElem_idxOf]
      · rwa [List.getElem_idxOf]

theorem precedes_iff_selectedBefore (hasMine : mineId ≠ "") (hasTheirs : theirsId ≠ "")
    {left right : String} (leftCommon : IsCommonAncestor repository mineId theirsId left)
    (rightCommon : IsCommonAncestor repository mineId theirsId right) :
    Precedes (distanceSum (ancestorDistances repository mineId)
        (ancestorDistances repository theirsId))
      (commonAncestors (ancestorDistances repository mineId)
        (ancestorDistances repository theirsId)) left right ↔
    SelectedBefore repository mineId theirsId left right := by
  rcases leftCommon.1.firstRoute hasMine with ⟨leftMine, isLeftMine⟩
  rcases leftCommon.2.firstRoute hasTheirs with ⟨leftTheirs, isLeftTheirs⟩
  rcases rightCommon.1.firstRoute hasMine with ⟨rightMine, isRightMine⟩
  rcases rightCommon.2.firstRoute hasTheirs with ⟨rightTheirs, isRightTheirs⟩
  have order := idxOf_commonAncestors_lt_iff hasMine hasTheirs leftCommon rightCommon isLeftMine
    isRightMine
  rw [Precedes, distanceSum, distanceSum, distanceOf_eq hasMine isLeftMine,
    distanceOf_eq hasTheirs isLeftTheirs, distanceOf_eq hasMine isRightMine,
    distanceOf_eq hasTheirs isRightTheirs, order]
  constructor
  · intro before
    exact ⟨_, _, _, _, isLeftMine, isLeftTheirs, isRightMine, isRightTheirs, before⟩
  · rintro ⟨_, _, _, _, first, second, third, fourth, before⟩
    rwa [first.unique isLeftMine, second.unique isLeftTheirs, third.unique isRightMine,
      fourth.unique isRightTheirs] at before

/-- A base is selected whenever there is a common ancestor. -/
theorem mergeBase_ne_empty (hasMine : mineId ≠ "") (hasTheirs : theirsId ≠ "") {id : String}
    (common : IsCommonAncestor repository mineId theirsId id) :
    mergeBase repository mineId theirsId ≠ "" := by
  have idMem := (mem_commonAncestors hasMine hasTheirs).mpr common
  rw [← (stableSort_perm (distanceSum (ancestorDistances repository mineId)
    (ancestorDistances repository theirsId)) _).mem_iff] at idMem
  unfold mergeBase
  dsimp only
  cases first : (stableSort (distanceSum (ancestorDistances repository mineId)
      (ancestorDistances repository theirsId)) (commonAncestors
        (ancestorDistances repository mineId) (ancestorDistances repository theirsId))).head? with
  | none => simp [List.head?_eq_none_iff.mp first] at idMem
  | some base =>
      have baseMem := (stableSort_perm _ _).mem_iff.mp (List.mem_of_head? first)
      exact ((mem_commonAncestors hasMine hasTheirs).mp baseMem).1.ne_empty hasMine

theorem mergeBase_eq_iff (hasMine : mineId ≠ "") (hasTheirs : theirsId ≠ "") {id : String}
    (hasId : id ≠ "") :
    mergeBase repository mineId theirsId = id ↔
      IsCommonAncestor repository mineId theirsId id ∧
        ∀ other, IsCommonAncestor repository mineId theirsId other →
          ¬ SelectedBefore repository mineId theirsId other id := by
  have selected : (stableSort (distanceSum (ancestorDistances repository mineId)
      (ancestorDistances repository theirsId)) (commonAncestors
        (ancestorDistances repository mineId) (ancestorDistances repository theirsId))).head? =
        some id ↔ _ := head?_stableSort_iff (commonAncestors_nodup hasMine)
  simp only [mem_commonAncestors hasMine hasTheirs] at selected
  have sameOrder : (IsCommonAncestor repository mineId theirsId id ∧
      ∀ other, IsCommonAncestor repository mineId theirsId other →
        ¬ SelectedBefore repository mineId theirsId other id) ↔ _ :=
    and_congr_right fun common => forall_congr' fun other => forall_congr' fun otherCommon =>
      not_congr (precedes_iff_selectedBefore hasMine hasTheirs otherCommon common).symm
  rw [sameOrder, ← selected, mergeBase]
  cases first : (stableSort (distanceSum (ancestorDistances repository mineId)
      (ancestorDistances repository theirsId)) (commonAncestors
        (ancestorDistances repository mineId) (ancestorDistances repository theirsId))).head? with
  | none => simpa using hasId.symm
  | some base => simp

theorem mergeBase_nearest_iff (repository : CollaborationRepository) (hasMine : mineId ≠ "")
    (hasTheirs : theirsId ≠ "") :
    IsNearestCommonAncestor repository mineId theirsId (mergeBase repository mineId theirsId) ↔
      NearestSelected repository mineId theirsId := by
  constructor
  · intro nearest
    have hasBase := nearest.1.1.ne_empty hasMine
    have first := ((mergeBase_eq_iff hasMine hasTheirs hasBase).mp rfl).2
    refine ⟨_, nearest, fun far common notNearest => ?_⟩
    have different : mergeBase repository mineId theirsId ≠ far :=
      fun same => notNearest (same ▸ nearest)
    have baseMem := (mem_commonAncestors hasMine hasTheirs).mpr nearest.1
    refine (precedes_iff_selectedBefore hasMine hasTheirs nearest.1 common).mp
      ((Precedes.total baseMem different).resolve_right fun later => ?_)
    exact first far common
      ((precedes_iff_selectedBefore hasMine hasTheirs common nearest.1).mp later)
  · rintro ⟨near, nearest, beforeFar⟩
    have hasBase := mergeBase_ne_empty hasMine hasTheirs nearest.1
    rcases (mergeBase_eq_iff hasMine hasTheirs hasBase).mp rfl with ⟨common, first⟩
    by_contra notNearest
    exact first near nearest.1 (beforeFar _ common notNearest)

end Ancestors

/-! ## Plans at a nearest common ancestor -/

/-- The base of a plan is a nearest common ancestor, and a branch that was merged before
is its own base and changes nothing. -/
structure MergesAtNearest (repository : CollaborationRepository)
    (plan : CollaborationMergePlan) : Prop where
  nearest : IsNearestCommonAncestor repository plan.targetHeadId plan.sourceHeadId
    plan.baseCommitId
  mergedBefore : IsAncestor repository plan.targetHeadId plan.sourceHeadId →
    plan.baseCommitId = plan.sourceHeadId ∧ plan.conflicts = [] ∧
      (findCommit repository plan.targetHeadId).map CollaborationCommit.snapshot =
        some plan.mergedSnapshot

theorem mergeValue_base (fuel : ℕ) (base mine : Option Json) (path : String) :
    mergeValue fuel base mine base path = (mine, []) := by
  unfold mergeValue
  by_cases same : mine = base
  · rw [if_pos same]
  · rw [if_neg same, if_neg same, if_pos rfl]

theorem branchHead_spec {repository : CollaborationRepository} {key name : String}
    {commit : CollaborationCommit} (isHead : branchHead repository key name = some commit) :
    findCommit repository commit.id = some commit ∧ commit.id ≠ "" := by
  rcases Option.bind_eq_some_iff.mp isHead with ⟨branch, _, headEq⟩
  unfold headCommit at headEq
  split at headEq
  · simp at headEq
  · rename_i hasHead
    have idEq := (findCommit_spec headEq).2
    rw [idEq]
    exact ⟨headEq, hasHead⟩

theorem planCollaborationBranchMerge_cases {repository : CollaborationRepository}
    {key sourceBranch : String} {plan : CollaborationMergePlan}
    (planned : planCollaborationBranchMerge repository key sourceBranch = .ok plan) :
    ∃ mine theirs,
      branchHead repository key (activeCollaborationBranch repository key) = some mine ∧
      branchHead repository key sourceBranch = some theirs ∧
      plan.targetHeadId = mine.id ∧ plan.sourceHeadId = theirs.id ∧
      plan.baseCommitId = mergeBase repository mine.id theirs.id ∧
      ∀ base, base = (if plan.baseCommitId = "" then none
          else findCommit repository plan.baseCommitId).map CollaborationCommit.snapshot →
        plan.mergedSnapshot = (mergeValue (mergeDepth (some mine.snapshot)) base
          (some mine.snapshot) (some theirs.snapshot) "").1.getD .null ∧
        plan.conflicts = (mergeValue (mergeDepth (some mine.snapshot)) base
          (some mine.snapshot) (some theirs.snapshot) "").2 := by
  unfold planCollaborationBranchMerge at planned
  dsimp only at planned
  split at planned
  · simp at planned
  · split at planned
    · rename_i mine theirs mineHead theirsHead
      cases planned
      exact ⟨mine, theirs, mineHead, theirsHead, rfl, rfl, rfl, fun base baseEq => by
        rw [baseEq]; exact ⟨rfl, rfl⟩⟩
    · simp at planned

/-- A plan merges at a nearest common ancestor, and merging again changes nothing,
exactly if some nearest common ancestor of the heads is selected before the others. -/
theorem plan_mergesAtNearest_iff {repository : CollaborationRepository} {key sourceBranch : String}
    {plan : CollaborationMergePlan}
    (planned : planCollaborationBranchMerge repository key sourceBranch = .ok plan) :
    MergesAtNearest repository plan ↔
      NearestSelected repository plan.targetHeadId plan.sourceHeadId := by
  rcases planCollaborationBranchMerge_cases planned with
    ⟨mine, theirs, mineHead, theirsHead, targetEq, sourceEq, baseEq, mergedEq⟩
  rcases branchHead_spec mineHead with ⟨mineFound, hasMine⟩
  rcases branchHead_spec theirsHead with ⟨theirsFound, hasTheirs⟩
  have nearest_iff := mergeBase_nearest_iff repository hasMine hasTheirs
  rw [← baseEq, ← targetEq, ← sourceEq] at nearest_iff
  constructor
  · exact fun merges => nearest_iff.mp merges.nearest
  · intro selected
    have nearest := nearest_iff.mpr selected
    refine ⟨nearest, fun isAncestor => ?_⟩
    have isBase : plan.baseCommitId = plan.sourceHeadId := by
      by_contra different
      exact nearest.2 plan.sourceHeadId ⟨isAncestor, Relation.ReflTransGen.refl⟩
        (Ne.symm different) nearest.1.2
    rcases mergedEq (some theirs.snapshot) (by
      rw [isBase, sourceEq, if_neg hasTheirs, theirsFound]
      rfl) with ⟨snapshotEq, conflictsEq⟩
    rw [mergeValue_base] at snapshotEq conflictsEq
    refine ⟨isBase, conflictsEq, ?_⟩
    rw [targetEq, mineFound, snapshotEq]
    rfl

/-! ## A merge that reverts -/

/-- Change the design on `feature`, keep that as `old`, and change it back. -/
def featureCommands : List CollaborationCommand :=
  [.commit (shopWorkspace "v1") [shopKey] "Ada" "First design" fun _ => firstDay,
    .createBranch shopKey "feature" firstDay,
    .commit (shopWorkspace "v2") [shopKey] "Ada" "Second design" fun _ => firstDay,
    .createBranch shopKey "old" firstDay,
    .checkout (shopWorkspace "v2") shopKey "feature",
    .commit (shopWorkspace "v1") [shopKey] "Ada" "Back to the first design" fun _ => firstDay,
    .checkout (shopWorkspace "v1") shopKey "main"]

def featureSession : Session :=
  featureCommands.foldl (runCommand parseDay countedIds) emptySession

/-- The plan that merges `feature` into `main`. -/
def featurePlan : CollaborationMergePlan where
  resourceKey := shopKey
  targetBranch := "main"
  sourceBranch := "feature"
  targetHeadId := "c"
  sourceHeadId := "ccc"
  baseCommitId := "c"
  mergedSnapshot := shopSnapshot "v1"
  conflicts := []

theorem featureSession_plan :
    planCollaborationBranchMerge featureSession.repository shopKey "feature" = .ok featurePlan := by
  decide

/-- The first commit has no parents, so it is the only common ancestor. -/
theorem featurePlan_mergesAtNearest : MergesAtNearest featureSession.repository featurePlan := by
  have onlyItself : ∀ id, IsAncestor featureSession.repository "c" id → id = "c" := by
    intro id isAncestor
    rcases Relation.ReflTransGen.cases_head isAncestor with same | ⟨parent, parentMem, _⟩
    · exact same.symm
    · rw [show parentsOf featureSession.repository "c" = [] by decide] at parentMem
      simp at parentMem
  have commits : IsAncestor featureSession.repository "ccc" "c" :=
    (Relation.ReflTransGen.single (show "cc" ∈ parentsOf featureSession.repository "ccc" by
      decide)).tail (by decide)
  have nearest : IsNearestCommonAncestor featureSession.repository "c" "ccc" "c" :=
    ⟨⟨Relation.ReflTransGen.refl, commits⟩,
      fun other common different => absurd (onlyItself other common.1) different⟩
  refine (plan_mergesAtNearest_iff featureSession_plan).mpr ⟨"c", nearest, ?_⟩
  intro far common notNearest
  rw [onlyItself far common.1] at notNearest
  exact absurd nearest notNearest

def mergedSession : Session :=
  runCommand parseDay countedIds featureSession
    (.resolveMerge (shopWorkspace "v1") featurePlan [] "Ada" "" firstDay)

/-- The plan that merges `old` into `main` after `feature`. -/
def oldPlan : CollaborationMergePlan where
  resourceKey := shopKey
  targetBranch := "main"
  sourceBranch := "old"
  targetHeadId := "cccc"
  sourceHeadId := "cc"
  baseCommitId := "c"
  mergedSnapshot := shopSnapshot "v2"
  conflicts := []

/-- The head of `old` was merged with `feature`, but merging it again brings back the
design that `feature` reverted, and no commit was pruned. -/
theorem merging_again_reverts :
    mergedSession.repository.commits.map CollaborationCommit.id = ["c", "cc", "ccc", "cccc"] ∧
      planCollaborationBranchMerge mergedSession.repository shopKey "old" = .ok oldPlan ∧
      IsAncestor mergedSession.repository oldPlan.targetHeadId oldPlan.sourceHeadId ∧
      ¬ MergesAtNearest mergedSession.repository oldPlan := by
  have isAncestor : IsAncestor mergedSession.repository "cccc" "cc" :=
    (Relation.ReflTransGen.single (show "ccc" ∈ parentsOf mergedSession.repository "cccc" by
      decide)).tail (by decide)
  refine ⟨by decide, by decide, isAncestor, fun merges => ?_⟩
  exact absurd (merges.mergedBefore isAncestor).1 (by decide)

end Brunomnia.Collaboration
