import Brunomnia.Library.Lists
import Brunomnia.Collaboration.Session

/-!
# Retention of branch heads

Pruning keeps the newest commits of a resource by date and does not look at branch
heads. A run of commands keeps the head of every branch exactly when no commit of
the run pushes a head, its own one included, out of the newest commits.
-/

namespace Brunomnia.Collaboration

open Brunomnia.Library

variable {dateParse : String → ℤ} {ids : CommitIds}

def HeadsRetained (repository : CollaborationRepository) : Prop :=
  ∀ branch ∈ repository.branches, HeadRetained repository branch

variable (dateParse) in
/-- A commit of a resource is among the newest ones when it is added, and leaves the
heads of the other branches of the resource among them. Of commits with one date, the
earlier ones count as newer. -/
def KeepsHeads (repository : CollaborationRepository) (commit : CollaborationCommit) : Prop :=
  ((commitsOf repository commit.resourceKey).filter fun other =>
      decide (dateParse commit.createdAt ≤ dateParse other.createdAt)).length <
    maxCommitsPerResource ∧
  ∀ branch ∈ collaborationBranches repository commit.resourceKey, branch.name ≠ commit.branch →
    ∀ head ∈ commitsOf repository commit.resourceKey, head.id = branch.headCommitId →
      rank (fun other => -dateParse other.createdAt)
          (commitsOf repository commit.resourceKey) head +
          (if dateParse head.createdAt < dateParse commit.createdAt then 1 else 0) <
        maxCommitsPerResource

/-! ## Adding one commit -/

theorem headsRetained_iff {repository : CollaborationRepository} :
    HeadsRetained repository ↔ ∀ key, HeadsRetainedOf repository key := by
  constructor
  · intro retained key branch branchMem
    exact retained branch (mem_collaborationBranches.mp branchMem).1
  · intro retained branch branchMem
    exact retained branch.resourceKey branch (mem_collaborationBranches.mpr ⟨branchMem, rfl⟩)

section AddCommit

variable {repository : CollaborationRepository} {commit : CollaborationCommit}

theorem Fresh.not_mem_commitsOf (fresh : Fresh repository commit) (key : String) :
    commit ∉ commitsOf repository key :=
  fun commitMem => fresh.unused (List.mem_map_of_mem (mem_commitsOf.mp commitMem).1)

theorem mem_addCommit_self (dateParse : String → ℤ) (sound : repository.Sound)
    (fresh : Fresh repository commit) :
    commit ∈ (addCommit dateParse repository commit).commits ↔
      ((commitsOf repository commit.resourceKey).filter fun other =>
        decide (dateParse commit.createdAt ≤ dateParse other.createdAt)).length <
          maxCommitsPerResource := by
  rw [mem_addCommit_commits sound fresh, rank_append_self (fresh.not_mem_commitsOf _)]
  simp only [or_true, true_and, forall_const, neg_le_neg_iff]

/-- An earlier commit of the resource is kept exactly if few commits are newer. -/
theorem mem_addCommit_sibling (sound : repository.Sound) (fresh : Fresh repository commit)
    {head : CollaborationCommit} (headMem : head ∈ commitsOf repository commit.resourceKey) :
    head ∈ (addCommit dateParse repository commit).commits ↔
      rank (fun other => -dateParse other.createdAt) (commitsOf repository commit.resourceKey)
          head + (if dateParse head.createdAt < dateParse commit.createdAt then 1 else 0) <
        maxCommitsPerResource := by
  rcases mem_commitsOf.mp headMem with ⟨inCommits, keyEq⟩
  rw [mem_addCommit_commits sound fresh,
    rank_append_of_mem headMem (fresh.not_mem_commitsOf _)]
  simp only [inCommits, keyEq, true_or, true_and, forall_const, neg_lt_neg_iff]

/-- Heads of the resource survive the pruning exactly if the commit keeps them. -/
theorem headsRetainedOf_addCommit_iff (sound : repository.Sound)
    (fresh : Fresh repository commit)
    (retained : HeadsRetainedOf repository commit.resourceKey) :
    HeadsRetainedOf (addCommit dateParse repository commit) commit.resourceKey ↔
      KeepsHeads dateParse repository commit := by
  have addedSound := addCommit_sound dateParse sound fresh
  constructor
  · intro after
    constructor
    · rcases exists_pushed_branch sound commit with ⟨branch, branchMem, keyEq, _, headEq⟩
      have hasHead : branch.headCommitId ≠ "" := headEq ▸ fresh.nonempty
      rcases after branch (mem_collaborationBranches.mpr ⟨branchMem, keyEq⟩) hasHead with
        ⟨kept, keptMem, idEq, _⟩
      rcases ((mem_addCommit_commits sound fresh).mp keptMem).1 with earlier | rfl
      · have reused := List.mem_map_of_mem (f := CollaborationCommit.id) earlier
        rw [idEq, headEq] at reused
        exact absurd reused fresh.unused
      · exact (mem_addCommit_self dateParse sound fresh).mp keptMem
    · intro branch branchMem otherName head headMem headEq
      rcases mem_collaborationBranches.mp branchMem with ⟨inBranches, keyEq⟩
      rcases mem_commitsOf.mp headMem with ⟨inCommits, _⟩
      have stillThere := mem_pushCommit_branches_of_ne sound inBranches
        fun named => otherName named.2
      have hasHead : branch.headCommitId ≠ "" := headEq ▸ sound.idsNonempty head inCommits
      rcases after branch (mem_collaborationBranches.mpr ⟨stillThere, keyEq⟩) hasHead with
        ⟨kept, keptMem, idEq, _⟩
      have isHead : kept = head := by
        rcases ((mem_addCommit_commits sound fresh).mp keptMem).1 with earlier | rfl
        · exact List.inj_on_of_nodup_map sound.idsNodup earlier inCommits (idEq.trans headEq.symm)
        · have reused := List.mem_map_of_mem (f := CollaborationCommit.id) inCommits
          rw [headEq, ← idEq] at reused
          exact absurd reused fresh.unused
      rw [isHead] at keptMem
      exact (mem_addCommit_sibling sound fresh headMem).mp keptMem
  · rintro ⟨keepsCommit, keepsOthers⟩ branch branchMem hasHead
    rcases mem_collaborationBranches.mp branchMem with ⟨inPushed, keyEq⟩
    rcases mem_pushCommit_branches sound commit inPushed with ⟨inBranches, other⟩ | isPushed
    · have ofResource := mem_collaborationBranches.mpr ⟨inBranches, keyEq⟩
      have otherName : branch.name ≠ commit.branch := fun nameEq => other ⟨keyEq, nameEq⟩
      rcases retained branch ofResource hasHead with ⟨head, inCommits, idEq, headKey⟩
      have headMem : head ∈ commitsOf repository commit.resourceKey :=
        mem_commitsOf.mpr ⟨inCommits, headKey.trans keyEq⟩
      refine ⟨head, ?_, idEq, headKey⟩
      exact (mem_addCommit_sibling sound fresh headMem).mpr
        (keepsOthers branch ofResource otherName head headMem idEq)
    · exact ⟨commit, (mem_addCommit_self dateParse sound fresh).mpr keepsCommit, isPushed.2.2.symm,
        isPushed.1.symm⟩

theorem headsRetained_addCommit_iff (sound : repository.Sound) (fresh : Fresh repository commit)
    (retained : HeadsRetained repository) :
    HeadsRetained (addCommit dateParse repository commit) ↔
      KeepsHeads dateParse repository commit := by
  rw [headsRetained_iff] at retained ⊢
  constructor
  · intro after
    exact (headsRetainedOf_addCommit_iff sound fresh (retained _)).mp (after _)
  · intro keeps key
    by_cases same : key = commit.resourceKey
    · rw [same]
      exact (headsRetainedOf_addCommit_iff sound fresh (retained _)).mpr keeps
    · exact (headsRetainedOf_congr (commitsOf_addCommit_of_ne same)
        (collaborationBranches_addCommit_of_ne same)).mpr (retained key)

/-- A repository that agrees on the resource of a commit keeps heads alike. -/
theorem keepsHeads_congr {other : CollaborationRepository}
    (sameCommits : commitsOf other commit.resourceKey = commitsOf repository commit.resourceKey)
    (sameBranches : collaborationBranches other commit.resourceKey =
      collaborationBranches repository commit.resourceKey) :
    KeepsHeads dateParse other commit ↔ KeepsHeads dateParse repository commit := by
  unfold KeepsHeads
  rw [sameCommits, sameBranches]

end AddCommit

/-! ## Adding the commits of a command -/

/-- Commits of different resources, with different new ids. -/
structure FreshCommits (repository : CollaborationRepository)
    (commits : List CollaborationCommit) : Prop where
  fresh : ∀ commit ∈ commits, Fresh repository commit
  idsNodup : (commits.map CollaborationCommit.id).Nodup
  keysNodup : (commits.map CollaborationCommit.resourceKey).Nodup

theorem FreshCommits.tail {repository : CollaborationRepository} {commit : CollaborationCommit}
    {commits : List CollaborationCommit} (sound : repository.Sound)
    (freshCommits : FreshCommits repository (commit :: commits)) :
    FreshCommits (addResourceCommit dateParse repository commit) commits := by
  have commitFresh := freshCommits.fresh commit List.mem_cons_self
  rcases freshCommits with ⟨fresh, idsNodup, keysNodup⟩
  rw [List.map_cons, List.nodup_cons] at idsNodup keysNodup
  refine ⟨fun other otherMem => ⟨?_, (fresh other (List.mem_cons_of_mem _ otherMem)).nonempty⟩,
    idsNodup.2, keysNodup.2⟩
  intro reused
  rw [(addResourceCommit_parts _ _ _).1, List.mem_map] at reused
  rcases reused with ⟨kept, keptMem, idEq⟩
  rcases ((mem_addCommit_commits sound commitFresh).mp keptMem).1 with earlier | rfl
  · exact (fresh other (List.mem_cons_of_mem _ otherMem)).unused
      (List.mem_map.mpr ⟨kept, earlier, idEq⟩)
  · exact idsNodup.1 (List.mem_map.mpr ⟨other, otherMem, idEq.symm⟩)

theorem headsRetainedOf_addResourceCommit_iff {repository : CollaborationRepository}
    {commit : CollaborationCommit} {key : String} :
    HeadsRetainedOf (addResourceCommit dateParse repository commit) key ↔
      HeadsRetainedOf (addCommit dateParse repository commit) key := by
  rcases addResourceCommit_parts dateParse repository commit with ⟨sameCommits, sameBranches⟩
  apply headsRetainedOf_congr
  · rw [commitsOf, commitsOf, sameCommits]
  · rw [collaborationBranches, collaborationBranches, sameBranches]

/-- Commits of different resources do not meet: heads survive them all exactly if each
commit keeps the heads in the repository before. -/
theorem headsRetainedOf_foldl_iff (dateParse : String → ℤ) {commits : List CollaborationCommit}
    {repository : CollaborationRepository} (sound : repository.Sound)
    (freshCommits : FreshCommits repository commits)
    (retained : ∀ commit ∈ commits, HeadsRetainedOf repository commit.resourceKey) :
    (∀ key, HeadsRetainedOf (commits.foldl (addResourceCommit dateParse) repository) key) ↔
      (∀ commit ∈ commits, KeepsHeads dateParse repository commit) ∧
        ∀ key, key ∉ commits.map CollaborationCommit.resourceKey →
          HeadsRetainedOf repository key := by
  induction commits generalizing repository with
  | nil => simp
  | cons commit commits ih =>
      have commitFresh := freshCommits.fresh commit List.mem_cons_self
      have keysNodup := freshCommits.keysNodup
      rw [List.map_cons, List.nodup_cons] at keysNodup
      have otherKey : ∀ other ∈ commits, other.resourceKey ≠ commit.resourceKey := by
        intro other otherMem same
        exact keysNodup.1 (List.mem_map.mpr ⟨other, otherMem, same⟩)
      have frame : ∀ key, key ≠ commit.resourceKey →
          (HeadsRetainedOf (addResourceCommit dateParse repository commit) key ↔
            HeadsRetainedOf repository key) := by
        intro key different
        rcases addResourceCommit_of_ne dateParse repository different with
          ⟨sameCommits, sameBranches⟩
        exact headsRetainedOf_congr sameCommits sameBranches
      have own : HeadsRetainedOf (addResourceCommit dateParse repository commit)
          commit.resourceKey ↔ KeepsHeads dateParse repository commit := by
        rw [headsRetainedOf_addResourceCommit_iff]
        exact headsRetainedOf_addCommit_iff sound commitFresh
          (retained commit List.mem_cons_self)
      have keeps_iff : ∀ other ∈ commits,
          (KeepsHeads dateParse (addResourceCommit dateParse repository commit) other ↔
            KeepsHeads dateParse repository other) := by
        intro other otherMem
        rcases addResourceCommit_of_ne dateParse repository (otherKey other otherMem) with
          ⟨sameCommits, sameBranches⟩
        exact keepsHeads_congr sameCommits sameBranches
      rw [List.foldl_cons, ih (addResourceCommit_sound dateParse sound commitFresh)
        (freshCommits.tail sound) fun other otherMem => (frame _ (otherKey other otherMem)).mpr
          (retained other (List.mem_cons_of_mem _ otherMem))]
      constructor
      · rintro ⟨keepsRest, others⟩
        constructor
        · intro other otherMem
          rcases List.mem_cons.mp otherMem with rfl | otherMem
          · exact own.mp (others _ keysNodup.1)
          · exact (keeps_iff other otherMem).mp (keepsRest other otherMem)
        · intro key notKey
          rw [List.map_cons, List.mem_cons, not_or] at notKey
          exact (frame key notKey.1).mp (others key notKey.2)
      · rintro ⟨keeps, others⟩
        constructor
        · exact fun other otherMem => (keeps_iff other otherMem).mpr
            (keeps other (List.mem_cons_of_mem _ otherMem))
        · intro key notKey
          by_cases same : key = commit.resourceKey
          · rw [same]
            exact own.mpr (keeps commit List.mem_cons_self)
          · refine (frame key same).mpr (others key ?_)
            rw [List.map_cons, List.mem_cons, not_or]
            exact ⟨same, notKey⟩

theorem foldl_addResourceCommit_sound (dateParse : String → ℤ)
    {commits : List CollaborationCommit} {repository : CollaborationRepository}
    (sound : repository.Sound) (freshCommits : FreshCommits repository commits) :
    (commits.foldl (addResourceCommit dateParse) repository).Sound ∧
      ∀ other ∈ (commits.foldl (addResourceCommit dateParse) repository).commits,
        other ∈ repository.commits ∨ other ∈ commits := by
  induction commits generalizing repository with
  | nil => exact ⟨sound, fun other otherMem => Or.inl otherMem⟩
  | cons commit commits ih =>
      have commitFresh := freshCommits.fresh commit List.mem_cons_self
      rcases ih (addResourceCommit_sound dateParse sound commitFresh) (freshCommits.tail sound) with
        ⟨afterSound, afterMem⟩
      refine ⟨afterSound, fun other otherMem => ?_⟩
      rcases afterMem other otherMem with added | later
      · rw [(addResourceCommit_parts _ _ _).1] at added
        rcases ((mem_addCommit_commits sound commitFresh).mp added).1 with earlier | rfl
        · exact Or.inl earlier
        · exact Or.inr List.mem_cons_self
      · exact Or.inr (List.mem_cons_of_mem _ later)

/-! ## Commands -/

/-- The repository is sound, and its commits have ids that were handed out. -/
structure Session.Issued (ids : CommitIds) (session : Session) : Prop where
  sound : session.repository.Sound
  issued : ∀ commit ∈ session.repository.commits, ∃ n < session.drawn, commit.id = ids.identifier n

variable {session : Session}

theorem Session.Issued.unused (issued : session.Issued ids) {n : ℕ} (later : session.drawn ≤ n) :
    ids.identifier n ∉ session.repository.commits.map CollaborationCommit.id := by
  intro reused
  rcases List.mem_map.mp reused with ⟨commit, commitMem, idEq⟩
  rcases issued.issued commit commitMem with ⟨earlier, below, earlierId⟩
  have same := ids.injective (earlierId.symm.trans idEq)
  omega

theorem Session.Issued.fresh (issued : session.Issued ids) {commit : CollaborationCommit}
    (idEq : commit.id = ids.identifier session.drawn) : Fresh session.repository commit :=
  ⟨idEq ▸ issued.unused le_rfl, idEq ▸ ids.nonempty _⟩

/-- A command is allowed if each commit that it makes keeps the heads. -/
def Allowed (dateParse : String → ℤ) (ids : CommitIds) (session : Session)
    (command : CollaborationCommand) : Prop :=
  (execute dateParse ids session command).isOk →
    ∀ commit ∈ dueCommits ids session command, KeepsHeads dateParse session.repository commit

theorem freshCommits_resourceCommits (issued : session.Issued ids) {workspace : Workspace}
    {actor message : String} {now : ℕ → String} {keys : List String} (keysNodup : keys.Nodup) :
    FreshCommits session.repository
      (resourceCommits workspace session.repository actor message now
        (fun made => ids.identifier (session.drawn + made)) 0 keys) where
  fresh := by
    intro commit commitMem
    have idMem := List.mem_map_of_mem (f := CollaborationCommit.id) commitMem
    rw [resourceCommits_ids, List.mem_map] at idMem
    rcases idMem with ⟨made, _, idEq⟩
    exact ⟨idEq ▸ issued.unused (by omega), idEq ▸ ids.nonempty _⟩
  idsNodup := by
    rw [resourceCommits_ids]
    apply List.Nodup.map _ (List.nodup_range' _)
    intro first second same
    have sameIndex := ids.injective same
    omega
  keysNodup := List.Nodup.sublist (resourceCommits_keys_sublist _ _) keysNodup

/-- What an accepted command does to the invariant and to the heads. -/
def StepSpec (dateParse : String → ℤ) (ids : CommitIds) (session : Session)
    (command : CollaborationCommand) (after : Session) : Prop :=
  after.Issued ids ∧
    (HeadsRetained after.repository ↔
      ∀ commit ∈ dueCommits ids session command, KeepsHeads dateParse session.repository commit)

theorem Session.Issued.addCommit (issued : session.Issued ids) (dateParse : String → ℤ)
    {commit : CollaborationCommit} (idEq : commit.id = ids.identifier session.drawn) :
    Session.Issued ids
      { repository := addCommit dateParse session.repository commit
        drawn := session.drawn + 1 } where
  sound := addCommit_sound dateParse issued.sound (issued.fresh idEq)
  issued := by
    intro other otherMem
    rcases ((mem_addCommit_commits issued.sound (issued.fresh idEq)).mp otherMem).1 with
      earlier | rfl
    · rcases issued.issued other earlier with ⟨n, below, otherId⟩
      exact ⟨n, Nat.lt_succ_of_lt below, otherId⟩
    · exact ⟨session.drawn, Nat.lt_succ_self _, idEq⟩

/-- A command that leaves the commits and adds only branches with retained heads. -/
theorem stepSpec_of_no_commits (issued : session.Issued ids)
    (retained : HeadsRetained session.repository) {command : CollaborationCommand}
    (noneDue : dueCommits ids session command = []) {after : Session}
    (sameDrawn : after.drawn = session.drawn)
    (sameCommits : after.repository.commits = session.repository.commits)
    (namesNodup : (after.repository.branches.map fun branch =>
      (branch.resourceKey, branch.name)).Nodup)
    (newRetained : ∀ branch ∈ after.repository.branches, branch ∈ session.repository.branches ∨
      HeadRetained session.repository branch) :
    StepSpec dateParse ids session command after := by
  refine ⟨⟨⟨?_, ?_, namesNodup⟩, ?_⟩, ?_⟩
  · rw [sameCommits]
    exact issued.sound.idsNodup
  · rw [sameCommits]
    exact issued.sound.idsNonempty
  · rw [sameCommits, sameDrawn]
    exact issued.issued
  · rw [noneDue]
    simp only [List.not_mem_nil, false_implies, implies_true, iff_true]
    intro branch branchMem
    unfold HeadRetained
    rw [sameCommits]
    rcases newRetained branch branchMem with earlier | isRetained
    · exact retained branch earlier
    · exact isRetained

theorem stepSpec_commit (issued : session.Issued ids)
    (retained : HeadsRetained session.repository) {workspace : Workspace} {keys : List String}
    {actor message : String} {now : ℕ → String} {after : Session}
    (ok : execute dateParse ids session (.commit workspace keys actor message now) = .ok after) :
    StepSpec dateParse ids session (.commit workspace keys actor message now) after := by
  have keysNodup : (keys.eraseDups.take 100).Nodup :=
    List.Nodup.sublist (List.take_sublist _ _) (nodup_eraseDups keys)
  have retainedOf := headsRetained_iff.mp retained
  rcases map_eq_ok.mp ok with ⟨result, resultOk, rfl⟩
  unfold commitCollaborationResources at resultOk
  dsimp only at resultOk
  split at resultOk
  · simp at resultOk
  · rcases commitResources_eq keysNodup
      (fun _ _ same => Nat.add_left_cancel (ids.injective same)) (fun _ => ids.nonempty _)
      issued.sound (fun _ _ => issued.unused (Nat.le_add_right _ _))
      (fun key _ => retainedOf key) resultOk with ⟨committedEq, repositoryEq⟩
    have freshCommits : FreshCommits session.repository result.2 := by
      rw [committedEq]
      exact freshCommits_resourceCommits issued keysNodup
    rcases foldl_addResourceCommit_sound dateParse issued.sound freshCommits with
      ⟨afterSound, afterMem⟩
    rw [← repositoryEq] at afterSound afterMem
    refine ⟨⟨afterSound, ?_⟩, ?_⟩
    · intro commit commitMem
      rcases afterMem commit commitMem with earlier | added
      · rcases issued.issued commit earlier with ⟨n, below, idEq⟩
        exact ⟨n, Nat.lt_add_right _ below, idEq⟩
      · have idMem := List.mem_map_of_mem (f := CollaborationCommit.id) added
        rw [committedEq, resourceCommits_ids, ← committedEq, List.mem_map] at idMem
        rcases idMem with ⟨made, madeMem, idEq⟩
        rw [List.mem_range'_1] at madeMem
        exact ⟨session.drawn + made, by dsimp only; omega, idEq.symm⟩
    · have heads_iff := headsRetainedOf_foldl_iff dateParse issued.sound freshCommits
        fun commit _ => retainedOf commit.resourceKey
      dsimp only
      rw [repositoryEq, headsRetained_iff, heads_iff, committedEq]
      exact and_iff_left fun key _ => retainedOf key

theorem stepSpec_createBranch (issued : session.Issued ids)
    (retained : HeadsRetained session.repository) {key name now : String} {after : Session}
    (ok : execute dateParse ids session (.createBranch key name now) = .ok after) :
    StepSpec dateParse ids session (.createBranch key name now) after := by
  rcases map_eq_ok.mp ok with ⟨repository, created, rfl⟩
  rcases createCollaborationBranch_cases created with ⟨_, newName, _, rfl⟩
  refine stepSpec_of_no_commits issued retained rfl rfl rfl ?_ ?_
  · rw [List.map_append, List.map_singleton, ← List.concat_eq_append, List.nodup_concat]
    refine ⟨fun named => ?_, issued.sound.namesNodup⟩
    rcases List.mem_map.mp named with ⟨branch, branchMem, sameName⟩
    rcases Prod.mk.inj sameName with ⟨keyEq, nameEq⟩
    exact newName branch (mem_collaborationBranches.mpr ⟨branchMem, keyEq⟩) (by rw [nameEq])
  · intro branch branchMem
    rw [List.mem_append, List.mem_singleton] at branchMem
    rcases branchMem with earlier | rfl
    · exact Or.inl earlier
    · refine Or.inr fun hasHead => ?_
      -- The head of the new branch is the head of the active one.
      cases isHead : branchHead session.repository key
          (activeCollaborationBranch session.repository key) with
      | none => simp [isHead] at hasHead
      | some head =>
          rcases Option.bind_eq_some_iff.mp isHead with ⟨active, found, headEq⟩
          rcases findBranch_spec found with ⟨activeMem, activeKey, _⟩
          have activeHasHead : active.headCommitId ≠ "" := by
            intro noHead
            simp [headCommit, noHead] at headEq
          rcases headCommit_of_retained issued.sound activeHasHead (retained active activeMem) with
            ⟨commit, commitMem, idEq, isCommit⟩
          rw [headEq, Option.some.injEq] at isCommit
          rw [← isCommit, activeKey] at commitMem
          rcases mem_commitsOf.mp commitMem with ⟨inCommits, headKey⟩
          exact ⟨head, inCommits, by simp, headKey⟩

theorem stepSpec_checkout (issued : session.Issued ids)
    (retained : HeadsRetained session.repository) {workspace : Workspace} {key name : String}
    {after : Session}
    (ok : execute dateParse ids session (.checkout workspace key name) = .ok after) :
    StepSpec dateParse ids session (.checkout workspace key name) after := by
  rcases map_eq_ok.mp ok with ⟨result, checkedOut, rfl⟩
  rcases checkoutCollaborationBranch_cases checkedOut with ⟨branch, _, _, repositoryEq⟩
  have sameBranches : result.2.branches = session.repository.branches := by rw [repositoryEq]
  refine stepSpec_of_no_commits issued retained rfl rfl (by rw [repositoryEq]) ?_ ?_
  · rw [sameBranches]
    exact issued.sound.namesNodup
  · intro branch branchMem
    rw [sameBranches] at branchMem
    exact Or.inl branchMem

theorem stepSpec_deleteBranch (issued : session.Issued ids)
    (retained : HeadsRetained session.repository) {key name : String} {after : Session}
    (ok : execute dateParse ids session (.deleteBranch key name) = .ok after) :
    StepSpec dateParse ids session (.deleteBranch key name) after := by
  rcases map_eq_ok.mp ok with ⟨repository, deleted, rfl⟩
  rcases deleteCollaborationBranch_cases deleted with ⟨_, _, rfl⟩
  refine stepSpec_of_no_commits issued retained rfl rfl rfl ?_ ?_
  · exact List.Nodup.sublist (List.filter_sublist.map _) issued.sound.namesNodup
  · exact fun branch branchMem => Or.inl (List.mem_of_mem_filter branchMem)

theorem stepSpec_resolveMerge (issued : session.Issued ids)
    (retained : HeadsRetained session.repository) {workspace : Workspace}
    {plan : CollaborationMergePlan} {resolutions : List (String × Json)}
    {actor message now : String} {after : Session}
    (ok : execute dateParse ids session
      (.resolveMerge workspace plan resolutions actor message now) = .ok after) :
    StepSpec dateParse ids session
      (.resolveMerge workspace plan resolutions actor message now) after := by
  rcases map_eq_ok.mp ok with ⟨result, merged, rfl⟩
  rcases resolveCollaborationBranchMerge_cases merged with
    ⟨snapshot, resolved, _, _, repositoryEq⟩
  have idEq : (mergeCommit plan snapshot actor message now
      (ids.identifier session.drawn)).id = ids.identifier session.drawn := rfl
  constructor
  · rw [repositoryEq]
    exact issued.addCommit dateParse idEq
  · dsimp only
    rw [repositoryEq, headsRetained_addCommit_iff issued.sound (issued.fresh idEq) retained]
    simp only [dueCommits, resolved, List.mem_singleton, forall_eq]

theorem stepSpec_restore (issued : session.Issued ids)
    (retained : HeadsRetained session.repository) {workspace : Workspace}
    {commitId actor now : String} {after : Session}
    (ok : execute dateParse ids session (.restore workspace commitId actor now) = .ok after) :
    StepSpec dateParse ids session (.restore workspace commitId actor now) after := by
  rcases map_eq_ok.mp ok with ⟨result, restored, rfl⟩
  rcases restoreCollaborationCommit_cases restored with ⟨historical, found, _, repositoryEq⟩
  have idEq : (restoringCommit session.repository historical actor now
      (ids.identifier session.drawn)).id = ids.identifier session.drawn := rfl
  constructor
  · rw [repositoryEq]
    exact issued.addCommit dateParse idEq
  · dsimp only
    rw [repositoryEq, headsRetained_addCommit_iff issued.sound (issued.fresh idEq) retained]
    simp only [dueCommits, found, Option.toList_some, List.map_singleton, List.mem_singleton,
      forall_eq]

theorem stepSpec_of_execute (issued : session.Issued ids)
    (retained : HeadsRetained session.repository) {command : CollaborationCommand}
    {after : Session} (ok : execute dateParse ids session command = .ok after) :
    StepSpec dateParse ids session command after := by
  cases command with
  | commit => exact stepSpec_commit issued retained ok
  | createBranch => exact stepSpec_createBranch issued retained ok
  | checkout => exact stepSpec_checkout issued retained ok
  | deleteBranch => exact stepSpec_deleteBranch issued retained ok
  | resolveMerge => exact stepSpec_resolveMerge issued retained ok
  | restore => exact stepSpec_restore issued retained ok

theorem runCommand_spec (issued : session.Issued ids)
    (retained : HeadsRetained session.repository) (command : CollaborationCommand) :
    (runCommand dateParse ids session command).Issued ids ∧
      (HeadsRetained (runCommand dateParse ids session command).repository ↔
        Allowed dateParse ids session command) := by
  unfold runCommand Allowed
  cases ok : execute dateParse ids session command with
  | error text =>
      refine ⟨issued, ?_⟩
      simp only [Except.isOk, Except.toBool, Bool.false_eq_true, false_implies, iff_true]
      exact retained
  | ok after =>
      rcases stepSpec_of_execute issued retained ok with ⟨afterIssued, heads_iff⟩
      refine ⟨afterIssued, ?_⟩
      simp only [Except.isOk, Except.toBool, true_implies]
      exact heads_iff

theorem emptySession_issued (ids : CommitIds) : emptySession.Issued ids where
  sound := ⟨List.nodup_nil, by simp [emptySession, emptyCollaborationRepository], List.nodup_nil⟩
  issued := by simp [emptySession, emptyCollaborationRepository]

/-- Every branch head is there in every state of a run exactly if every command that
makes commits keeps the heads among the newest commits. -/
theorem headsRetained_iff_allowed (dateParse : String → ℤ) (ids : CommitIds)
    (commands : List CollaborationCommand) :
    EveryState (runCommand dateParse ids) emptySession commands
        (fun session => HeadsRetained session.repository) ↔
      EveryStep (runCommand dateParse ids) emptySession commands (Allowed dateParse ids) := by
  apply everyState_iff_everyStep_of_invariant commands (Session.Issued ids)
  · exact ⟨emptySession_issued ids, by simp [HeadsRetained, emptySession,
      emptyCollaborationRepository]⟩
  · exact fun session command issued retained => (runCommand_spec issued retained command).1
  · exact fun session command issued retained => (runCommand_spec issued retained command).2

/-! ## A head that is pruned -/

/-- Commit the design on `main`, then go on with a branch. -/
def branchedCommands : List CollaborationCommand :=
  [.commit (shopWorkspace "v1") [shopKey] "Ada" "First design" fun _ => firstDay,
    .createBranch shopKey "copy" firstDay]

def restoreShop : CollaborationCommand :=
  .restore (shopWorkspace "v1") "c" "Ada" secondDay

def shopCommit : CollaborationCommit where
  id := "c"
  resourceKey := shopKey
  branch := "main"
  parentId := ""
  mergeParentId := none
  actor := "Ada"
  message := "First design"
  createdAt := firstDay
  snapshot := shopSnapshot "v1"

def branchedSession : Session where
  repository :=
    { activeBranches := [(shopKey, "copy")]
      branches := [
        { resourceKey := shopKey, name := "main", headCommitId := "c"
          createdAt := firstDay, updatedAt := firstDay },
        { resourceKey := shopKey, name := "copy", headCommitId := "c"
          createdAt := firstDay, updatedAt := firstDay }]
      commits := [shopCommit] }
  drawn := 1

/-- A number of restores of the first commit were made on `copy`. -/
structure Restored (count : ℕ) (session : Session) : Prop where
  issued : session.Issued countedIds
  commits : ∃ restores, session.repository.commits = shopCommit :: restores ∧
    restores.length = count ∧
    ∀ commit ∈ restores, commit.resourceKey = shopKey ∧ commit.createdAt = secondDay
  main : ∃ branch ∈ session.repository.branches, branch.resourceKey = shopKey ∧
    branch.name = "main" ∧ branch.headCommitId = shopCommit.id
  active : activeCollaborationBranch session.repository shopKey = "copy"

theorem Restored.commitsOf {count : ℕ} {session : Session} (restored : Restored count session) :
    commitsOf session.repository shopKey = session.repository.commits ∧
      session.repository.commits.length = count + 1 := by
  rcases restored.commits with ⟨restores, commitsEq, lengthEq, same⟩
  constructor
  · apply List.filter_eq_self.mpr
    intro commit commitMem
    rw [commitsEq, List.mem_cons] at commitMem
    rcases commitMem with rfl | later
    · rfl
    · simpa using (same commit later).1
  · rw [commitsEq, List.length_cons, lengthEq]

theorem execute_restoreShop {count : ℕ} {session : Session} (restored : Restored count session) :
    findCommit session.repository "c" = some shopCommit ∧
      execute parseDay countedIds session restoreShop = .ok
        { repository := addCommit parseDay session.repository
            (restoringCommit session.repository shopCommit "Ada" secondDay
              (countedIds.identifier session.drawn))
          drawn := session.drawn + 1 } := by
  rcases restored.commits with ⟨restores, commitsEq, _, _⟩
  have found : findCommit session.repository "c" = some shopCommit := by
    rw [findCommit, commitsEq, List.find?_cons_of_pos (by decide)]
  refine ⟨found, ?_⟩
  have applied : (applyCollaborationSnapshot (shopWorkspace "v1") shopCommit.resourceKey
      shopCommit.snapshot).isOk := by decide
  simp only [execute, restoreShop, restoreCollaborationCommit, found]
  cases appliedEq : applyCollaborationSnapshot (shopWorkspace "v1") shopCommit.resourceKey
      shopCommit.snapshot with
  | error text => simp [appliedEq, Except.isOk, Except.toBool] at applied
  | ok workspace => rfl

theorem Restored.next {count : ℕ} {session : Session} (restored : Restored count session)
    (room : count + 2 ≤ maxCommitsPerResource) :
    Restored (count + 1) (runCommand parseDay countedIds session restoreShop) := by
  rcases execute_restoreShop restored with ⟨_, accepted⟩
  rcases restored.commitsOf with ⟨allShop, lengthEq⟩
  set commit := restoringCommit session.repository shopCommit "Ada" secondDay
    (countedIds.identifier session.drawn) with commitDef
  have idEq : commit.id = countedIds.identifier session.drawn := rfl
  have branchEq : commit.branch = "copy" := restored.active
  have pushedEq : addCommit parseDay session.repository commit =
      pushCommit session.repository commit := by
    apply pruneCommits_of_length_le
    change (Brunomnia.Collaboration.commitsOf _ shopKey).length ≤ _
    have filtered := List.length_filter_le (fun other : CollaborationCommit =>
      decide (other.resourceKey = shopKey)) (pushCommit session.repository commit).commits
    simp only [pushCommit, List.length_append, List.length_singleton, lengthEq] at filtered
    exact filtered.trans room
  rw [runCommand, accepted]
  dsimp only
  refine ⟨restored.issued.addCommit parseDay idEq, ?_, ?_, restored.active⟩
  · rcases restored.commits with ⟨restores, commitsEq, countEq, same⟩
    refine ⟨restores ++ [commit], ?_, by simp [countEq], ?_⟩
    · dsimp only
      rw [pushedEq, pushCommit, commitsEq, List.cons_append]
    · intro other otherMem
      rw [List.mem_append, List.mem_singleton] at otherMem
      rcases otherMem with earlier | rfl
      · exact same other earlier
      · exact ⟨rfl, rfl⟩
  · rcases restored.main with ⟨branch, branchMem, keyEq, nameEq, headEq⟩
    refine ⟨branch, ?_, keyEq, nameEq, headEq⟩
    apply mem_pushCommit_branches_of_ne restored.issued.sound branchMem
    rw [nameEq, branchEq]
    exact fun named => absurd named.2 (by decide)

/-- The next restore after 199 of them does not keep the head of `main`. -/
theorem Restored.not_allowed {session : Session} (restored : Restored 199 session) :
    ¬ Allowed parseDay countedIds session restoreShop := by
  intro allowed
  rcases execute_restoreShop restored with ⟨found, accepted⟩
  rcases restored.commitsOf with ⟨allShop, _⟩
  rcases restored.main with ⟨branch, branchMem, keyEq, nameEq, headEq⟩
  rcases restored.commits with ⟨restores, commitsEq, lengthEq, same⟩
  have keeps := allowed (by rw [accepted]; rfl)
    (restoringCommit session.repository shopCommit "Ada" secondDay
      (countedIds.identifier session.drawn)) (by simp [dueCommits, restoreShop, found])
  have otherName : branch.name ≠ activeCollaborationBranch session.repository shopKey := by
    rw [nameEq, restored.active]
    decide
  have bound := keeps.2 branch (mem_collaborationBranches.mpr ⟨branchMem, keyEq⟩) otherName
    shopCommit (mem_commitsOf.mpr ⟨by simp [commitsEq], rfl⟩) headEq.symm
  change rank _ (Brunomnia.Collaboration.commitsOf session.repository shopKey) shopCommit + _ < _
    at bound
  have allNewer : restores.filter (fun other => Precedes
      (fun commit : CollaborationCommit => -parseDay commit.createdAt)
      (shopCommit :: restores) other shopCommit) = restores := by
    apply List.filter_eq_self.mpr
    intro other otherMem
    rw [decide_eq_true_eq, Precedes, (same other otherMem).2]
    exact Or.inl (by decide)
  have self : ¬ Precedes (fun commit : CollaborationCommit => -parseDay commit.createdAt)
      (shopCommit :: restores) shopCommit shopCommit := by simp [Precedes]
  have rankEq : rank (fun commit : CollaborationCommit => -parseDay commit.createdAt)
      (shopCommit :: restores) shopCommit = 199 := by
    rw [rank, List.filter_cons_of_neg (by simpa using self), allNewer, lengthEq]
  have older : parseDay shopCommit.createdAt < parseDay secondDay := by decide
  rw [allShop, commitsEq, rankEq] at bound
  exact absurd bound (by simp [restoringCommit, older, maxCommitsPerResource])

theorem branchedSession_restored : Restored 0 branchedSession where
  issued := ⟨⟨by decide, by decide, by decide⟩, by
    intro commit commitMem
    rw [branchedSession, List.mem_singleton] at commitMem
    exact ⟨0, Nat.zero_lt_one, by rw [commitMem]; decide⟩⟩
  commits := ⟨[], rfl, rfl, by simp⟩
  main := ⟨_, List.mem_cons_self, rfl, rfl, rfl⟩
  active := by decide

/-- A commit, a branch, and a number of restores on the branch. -/
def pruningCommands (restores : ℕ) : List CollaborationCommand :=
  branchedCommands ++ List.replicate restores restoreShop

theorem pruningCommands_length (restores : ℕ) :
    (pruningCommands restores).length = restores + 2 := by
  rw [pruningCommands, List.length_append, List.length_replicate, Nat.add_comm]
  rfl

theorem pruningCommands_getElem {restores count : ℕ}
    (inRange : count + 2 < (pruningCommands restores).length) :
    (pruningCommands restores)[count + 2] = restoreShop := by
  simp only [pruningCommands]
  rw [List.getElem_append_right (Nat.le_add_left 2 count), List.getElem_replicate]

theorem stateAt_pruningCommands {restores count : ℕ} (few : count ≤ 199)
    (inRange : count ≤ restores) :
    Restored count (stateAt (runCommand parseDay countedIds) emptySession
      (pruningCommands restores) (count + 2)) := by
  induction count with
  | zero =>
      have start : stateAt (runCommand parseDay countedIds) emptySession
          (pruningCommands restores) 2 = branchedSession := by
        change branchedCommands.foldl (runCommand parseDay countedIds) emptySession = _
        decide
      rw [start]
      exact branchedSession_restored
  | succ count ih =>
      have below : count + 2 < (pruningCommands restores).length := by
        rw [pruningCommands_length]
        omega
      rw [stateAt_succ below, pruningCommands_getElem below]
      exact (ih (by omega) (by omega)).next (by rw [maxCommitsPerResource]; omega)

/-- Restoring on a branch 200 times prunes the head of `main`. -/
theorem main_head_pruned :
    ¬ EveryState (runCommand parseDay countedIds) emptySession (pruningCommands 200)
      fun session => HeadsRetained session.repository := by
  intro every
  have lengthEq := pruningCommands_length 200
  have restored : Restored 199 (stateAt (runCommand parseDay countedIds) emptySession
      (pruningCommands 200) (199 + 2)) := stateAt_pruningCommands le_rfl (by omega)
  have inRange : 199 + 2 < (pruningCommands 200).length := by omega
  have before := every (199 + 2) (Nat.le_of_lt inRange)
  have after := every (199 + 2 + 1) inRange
  rw [stateAt_succ inRange, pruningCommands_getElem inRange] at after
  exact restored.not_allowed ((runCommand_spec restored.issued before restoreShop).2.mp after)

end Brunomnia.Collaboration
