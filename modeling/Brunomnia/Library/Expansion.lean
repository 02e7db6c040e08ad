import Mathlib.Algebra.Order.BigOperators.Group.List
import Mathlib.Algebra.Order.Ring.Nat
import Mathlib.Data.List.Nodup
import Mathlib.Logic.Relation

/-!
# Depth-first expansion

A worklist holds branches and leaves. A leaf is put out, and a branch that was not met before is
replaced by its children. Where every item has one parent, this lists the leaves below a branch
in depth-first order; the only branch that can come up again is the first one, by a cycle, and
it is passed over.
-/

namespace Brunomnia.Library

universe u v

variable {Branch : Type u} {Leaf : Type v} {children : Branch → List (Branch ⊕ Leaf)}

/-- Work off the list from its head until it is empty or the fuel is used up. -/
def expand [DecidableEq Branch] (children : Branch → List (Branch ⊕ Leaf)) :
    ℕ → List (Branch ⊕ Leaf) → List Branch → List Leaf
  | 0, _, _ => []
  | _ + 1, [], _ => []
  | fuel + 1, .inr leaf :: pending, met => leaf :: expand children fuel pending met
  | fuel + 1, .inl branch :: pending, met =>
      if branch ∈ met then expand children fuel pending met
      else expand children fuel (children branch ++ pending) (branch :: met)

/-! ## Depth-first order -/

/-- The leaves below items in depth-first order, without entering the root again. -/
inductive Listing (children : Branch → List (Branch ⊕ Leaf)) (root : Branch) :
    List (Branch ⊕ Leaf) → List Leaf → Prop where
  | nil : Listing children root [] []
  | leaf {leaf : Leaf} {items : List (Branch ⊕ Leaf)} {leaves : List Leaf}
      (rest : Listing children root items leaves) :
      Listing children root (.inr leaf :: items) (leaf :: leaves)
  | again {items : List (Branch ⊕ Leaf)} {leaves : List Leaf}
      (rest : Listing children root items leaves) :
      Listing children root (.inl root :: items) leaves
  | branch {branch : Branch} {items : List (Branch ⊕ Leaf)} {inner leaves : List Leaf}
      (other : branch ≠ root) (below : Listing children root (children branch) inner)
      (rest : Listing children root items leaves) :
      Listing children root (.inl branch :: items) (inner ++ leaves)

variable {root : Branch}

theorem Listing.of_append {left right : List (Branch ⊕ Leaf)} {leaves : List Leaf}
    (listing : Listing children root (left ++ right) leaves) :
    ∃ first second, leaves = first ++ second ∧ Listing children root left first ∧
      Listing children root right second := by
  induction left generalizing leaves with
  | nil => exact ⟨[], leaves, rfl, .nil, listing⟩
  | cons item left ih =>
      cases listing with
      | leaf rest =>
          rcases ih rest with ⟨first, second, rfl, before, after⟩
          exact ⟨_ :: first, second, rfl, .leaf before, after⟩
      | again rest =>
          rcases ih rest with ⟨first, second, rfl, before, after⟩
          exact ⟨first, second, rfl, .again before, after⟩
      | @branch _ _ inner _ other below rest =>
          rcases ih rest with ⟨first, second, rfl, before, after⟩
          exact ⟨inner ++ first, second, (List.append_assoc _ _ _).symm,
            .branch other below before, after⟩

/-- One branch is a child of another one. -/
def IsChild (children : Branch → List (Branch ⊕ Leaf)) (parent child : Branch) : Prop :=
  .inl child ∈ children parent

theorem Listing.exists_parent {items : List (Branch ⊕ Leaf)} {leaves : List Leaf}
    (listing : Listing children root items leaves) {leaf : Leaf} (leafMem : leaf ∈ leaves) :
    .inr leaf ∈ items ∨ ∃ top parent, .inl top ∈ items ∧
      Relation.ReflTransGen (IsChild children) top parent ∧ .inr leaf ∈ children parent := by
  induction listing with
  | nil => cases leafMem
  | leaf _ ih =>
      rcases List.mem_cons.mp leafMem with rfl | later
      · exact .inl List.mem_cons_self
      · rcases ih later with inItems | ⟨top, parent, topMem, reaches, leafChild⟩
        · exact .inl (List.mem_cons_of_mem _ inItems)
        · exact .inr ⟨top, parent, List.mem_cons_of_mem _ topMem, reaches, leafChild⟩
  | again _ ih =>
      rcases ih leafMem with inItems | ⟨top, parent, topMem, reaches, leafChild⟩
      · exact .inl (List.mem_cons_of_mem _ inItems)
      · exact .inr ⟨top, parent, List.mem_cons_of_mem _ topMem, reaches, leafChild⟩
  | @branch branch _ _ _ _ _ _ belowIh restIh =>
      rcases List.mem_append.mp leafMem with inner | later
      · rcases belowIh inner with isChild | ⟨top, parent, topMem, reaches, leafChild⟩
        · exact .inr ⟨branch, branch, List.mem_cons_self, .refl, isChild⟩
        · exact .inr ⟨branch, parent, List.mem_cons_self, .head topMem reaches, leafChild⟩
      · rcases restIh later with inItems | ⟨top, parent, topMem, reaches, leafChild⟩
        · exact .inl (List.mem_cons_of_mem _ inItems)
        · exact .inr ⟨top, parent, List.mem_cons_of_mem _ topMem, reaches, leafChild⟩

theorem Listing.mem_of_leaf {items : List (Branch ⊕ Leaf)} {leaves : List Leaf}
    (listing : Listing children root items leaves) {leaf : Leaf} (leafMem : .inr leaf ∈ items) :
    leaf ∈ leaves := by
  induction listing with
  | nil => cases leafMem
  | leaf _ ih =>
      rcases List.mem_cons.mp leafMem with same | later
      · cases same
        exact List.mem_cons_self
      · exact List.mem_cons_of_mem _ (ih later)
  | again _ ih =>
      rcases List.mem_cons.mp leafMem with same | later
      · cases same
      · exact ih later
  | branch _ _ _ _ restIh =>
      rcases List.mem_cons.mp leafMem with same | later
      · cases same
      · exact List.mem_append_right _ (restIh later)

theorem Listing.exists_below {items : List (Branch ⊕ Leaf)} {leaves : List Leaf}
    (listing : Listing children root items leaves) {branch : Branch} (other : branch ≠ root)
    (branchMem : .inl branch ∈ items) :
    ∃ inner, Listing children root (children branch) inner ∧ inner ⊆ leaves := by
  induction listing with
  | nil => cases branchMem
  | leaf _ ih =>
      rcases List.mem_cons.mp branchMem with same | later
      · cases same
      · rcases ih later with ⟨inner, below, subset⟩
        exact ⟨inner, below, List.subset_cons_of_subset _ subset⟩
  | again _ ih =>
      rcases List.mem_cons.mp branchMem with same | later
      · cases same
        exact absurd rfl other
      · exact ih later
  | @branch _ _ inner _ _ below _ _ restIh =>
      rcases List.mem_cons.mp branchMem with same | later
      · cases same
        exact ⟨inner, below, List.subset_append_left _ _⟩
      · rcases restIh later with ⟨inner, below, subset⟩
        exact ⟨inner, below, List.subset_append_of_subset_right _ subset⟩

theorem Listing.mem_iff {leaves : List Leaf}
    (listing : Listing children root (children root) leaves) {leaf : Leaf} :
    leaf ∈ leaves ↔ ∃ parent, Relation.ReflTransGen (IsChild children) root parent ∧
      .inr leaf ∈ children parent := by
  constructor
  · intro leafMem
    rcases listing.exists_parent leafMem with isChild | ⟨top, parent, topMem, reaches, leafChild⟩
    · exact ⟨root, .refl, isChild⟩
    · exact ⟨parent, .head topMem reaches, leafChild⟩
  · rintro ⟨parent, reaches, leafChild⟩
    have listed : ∃ inner, Listing children root (children parent) inner ∧ inner ⊆ leaves := by
      clear leafChild
      induction reaches with
      | refl => exact ⟨leaves, listing, List.Subset.refl _⟩
      | @tail _ child _ isChild ih =>
          by_cases isRoot : child = root
          · subst isRoot
            exact ⟨leaves, listing, List.Subset.refl _⟩
          · rcases ih with ⟨inner, above, subset⟩
            rcases above.exists_below isRoot isChild with ⟨deeper, below, deeperSubset⟩
            exact ⟨deeper, below, fun _ mem => subset (deeperSubset mem)⟩
    rcases listed with ⟨inner, below, subset⟩
    exact subset (below.mem_of_leaf leafChild)

/-! ## The worklist -/

/-- Every item is the child of one branch, and once. -/
structure OneParent (children : Branch → List (Branch ⊕ Leaf)) : Prop where
  nodup : ∀ parent, (children parent).Nodup
  parent_unique : ∀ item first second, item ∈ children first → item ∈ children second →
    first = second

/-- What holds of the pending items and of the branches met between two steps. -/
structure ExpansionInvariant (children : Branch → List (Branch ⊕ Leaf)) (root : Branch)
    (pending : List (Branch ⊕ Leaf)) (met : List Branch) : Prop where
  nodup : pending.Nodup
  root_met : root ∈ met
  met_parent : ∀ branch ∈ met, branch ≠ root → ∃ parent ∈ met, .inl branch ∈ children parent
  pending_parent : ∀ item ∈ pending, ∃ parent ∈ met, item ∈ children parent
  met_pending : ∀ branch ∈ met, .inl branch ∈ pending → branch = root

theorem ExpansionInvariant.initial (oneParent : OneParent children) (root : Branch) :
    ExpansionInvariant children root (children root) [root] where
  nodup := oneParent.nodup root
  root_met := List.mem_singleton_self root
  met_parent := fun _ branchMem other => absurd (List.mem_singleton.mp branchMem) other
  pending_parent := fun _ itemMem => ⟨root, List.mem_singleton_self root, itemMem⟩
  met_pending := fun _ branchMem _ => List.mem_singleton.mp branchMem

theorem ExpansionInvariant.skip {item : Branch ⊕ Leaf} {pending : List (Branch ⊕ Leaf)}
    {met : List Branch} (invariant : ExpansionInvariant children root (item :: pending) met) :
    ExpansionInvariant children root pending met where
  nodup := (List.nodup_cons.mp invariant.nodup).2
  root_met := invariant.root_met
  met_parent := invariant.met_parent
  pending_parent := fun item itemMem =>
    invariant.pending_parent item (List.mem_cons_of_mem _ itemMem)
  met_pending := fun branch branchMem branchPending =>
    invariant.met_pending branch branchMem (List.mem_cons_of_mem _ branchPending)

/-- A branch that is met for the first time is replaced by its children. -/
theorem ExpansionInvariant.enter (oneParent : OneParent children) {branch : Branch}
    {pending : List (Branch ⊕ Leaf)} {met : List Branch}
    (invariant : ExpansionInvariant children root (.inl branch :: pending) met)
    (fresh : branch ∉ met) :
    ExpansionInvariant children root (children branch ++ pending) (branch :: met) := by
  rcases List.nodup_cons.mp invariant.nodup with ⟨notPending, nodup⟩
  -- No child of the new branch is a child of a branch that was met before.
  have apart : ∀ item ∈ children branch, ∀ parent ∈ met, item ∉ children parent := by
    intro item isChild parent parentMet isOther
    rw [oneParent.parent_unique item branch parent isChild isOther] at fresh
    exact fresh parentMet
  constructor
  · apply List.Nodup.append (oneParent.nodup branch) nodup
    intro item isChild isPending
    rcases invariant.pending_parent item (List.mem_cons_of_mem _ isPending) with
      ⟨parent, parentMet, isOther⟩
    exact apart item isChild parent parentMet isOther
  · exact List.mem_cons_of_mem _ invariant.root_met
  · intro other otherMet notRoot
    rcases List.mem_cons.mp otherMet with rfl | before
    · rcases invariant.pending_parent _ List.mem_cons_self with ⟨parent, parentMet, isChild⟩
      exact ⟨parent, List.mem_cons_of_mem _ parentMet, isChild⟩
    · rcases invariant.met_parent other before notRoot with ⟨parent, parentMet, isChild⟩
      exact ⟨parent, List.mem_cons_of_mem _ parentMet, isChild⟩
  · intro item itemMem
    rcases List.mem_append.mp itemMem with isChild | isPending
    · exact ⟨branch, List.mem_cons_self, isChild⟩
    · rcases invariant.pending_parent item (List.mem_cons_of_mem _ isPending) with
        ⟨parent, parentMet, isChild⟩
      exact ⟨parent, List.mem_cons_of_mem _ parentMet, isChild⟩
  · intro other otherMet otherMem
    rcases List.mem_append.mp otherMem with isChild | isPending
    · by_contra notRoot
      have parents : ∃ parent ∈ met, .inl other ∈ children parent := by
        rcases List.mem_cons.mp otherMet with rfl | before
        · exact invariant.pending_parent _ List.mem_cons_self
        · exact invariant.met_parent other before notRoot
      rcases parents with ⟨parent, parentMet, isOther⟩
      exact apart _ isChild parent parentMet isOther
    · rcases List.mem_cons.mp otherMet with rfl | before
      · exact absurd isPending notPending
      · exact invariant.met_pending other before (List.mem_cons_of_mem _ isPending)

variable [DecidableEq Branch]

/-- The steps that are left: the pending items, and the children of branches not met yet. -/
def expansionSteps (children : Branch → List (Branch ⊕ Leaf)) (nodes : List Branch)
    (pending : List (Branch ⊕ Leaf)) (met : List Branch) : ℕ :=
  pending.length + ((nodes.filter fun node => decide (node ∉ met)).map fun node =>
    (children node).length).sum

theorem expansionSteps_enter (children : Branch → List (Branch ⊕ Leaf)) {nodes : List Branch}
    {branch : Branch} (isNode : branch ∈ nodes) {met : List Branch} (fresh : branch ∉ met)
    (pending : List (Branch ⊕ Leaf)) :
    expansionSteps children nodes (children branch ++ pending) (branch :: met) + 1 ≤
      expansionSteps children nodes (.inl branch :: pending) met := by
  have sums : (children branch).length + ((nodes.filter fun node =>
        decide (node ∉ branch :: met)).map fun node => (children node).length).sum ≤
      ((nodes.filter fun node => decide (node ∉ met)).map fun node =>
        (children node).length).sum := by
    have sublist : ((branch :: nodes.filter fun node => decide (node ∉ branch :: met)).Subperm
        (nodes.filter fun node => decide (node ∉ met))) := by
      have inMet : branch ∈ nodes.filter fun node => decide (node ∉ met) :=
        List.mem_filter.mpr ⟨isNode, by simpa using fresh⟩
      apply List.cons_subperm_of_not_mem_of_mem _ inMet
      · apply List.Sublist.subperm
        apply List.monotone_filter_right
        intro node outside
        simp only [List.mem_cons, not_or, decide_eq_true_eq] at outside ⊢
        exact outside.2
      · simp
    rcases sublist with ⟨between, perm, isSublist⟩
    have le := (isSublist.map fun node => (children node).length).sum_le_sum fun _ _ =>
      Nat.zero_le _
    rw [(perm.map fun node => (children node).length).sum_eq] at le
    simpa using le
  simp only [expansionSteps, List.length_append, List.length_cons]
  omega

/-- With enough steps, the leaves are put out in depth-first order. -/
theorem expand_listing (oneParent : OneParent children) {nodes : List Branch}
    (complete : ∀ parent branch, .inl branch ∈ children parent → branch ∈ nodes) {fuel : ℕ}
    {pending : List (Branch ⊕ Leaf)} {met : List Branch}
    (invariant : ExpansionInvariant children root pending met)
    (enough : expansionSteps children nodes pending met < fuel) :
    Listing children root pending (expand children fuel pending met) := by
  induction fuel generalizing pending met with
  | zero => exact absurd enough (Nat.not_lt_zero _)
  | succ fuel ih =>
      match pending with
      | [] => exact .nil
      | .inr leaf :: pending =>
          rw [expand]
          apply Listing.leaf
          apply ih invariant.skip
          simp only [expansionSteps, List.length_cons] at enough ⊢
          omega
      | .inl branch :: pending =>
          rw [expand]
          split
          case isTrue known =>
            rw [invariant.met_pending branch known List.mem_cons_self]
            apply Listing.again
            apply ih invariant.skip
            simp only [expansionSteps, List.length_cons] at enough ⊢
            omega
          case isFalse fresh =>
            rcases invariant.pending_parent _ List.mem_cons_self with ⟨parent, _, isChild⟩
            have less := expansionSteps_enter children (complete parent branch isChild) fresh
              pending
            have listing := ih (invariant.enter oneParent fresh) (by omega)
            rcases listing.of_append with ⟨first, second, eq, below, rest⟩
            rw [eq]
            apply Listing.branch _ below rest
            rintro rfl
            exact fresh invariant.root_met

theorem expand_children_listing (oneParent : OneParent children) {nodes : List Branch}
    (complete : ∀ parent branch, .inl branch ∈ children parent → branch ∈ nodes) (root : Branch)
    {fuel : ℕ} (enough : (children root).length +
      (nodes.map fun node => (children node).length).sum < fuel) :
    Listing children root (children root) (expand children fuel (children root) [root]) := by
  apply expand_listing oneParent complete (.initial oneParent root)
  have le := ((List.filter_sublist (p := fun node => decide (node ∉ [root])) (l := nodes)).map
    fun node => (children node).length).sum_le_sum fun _ _ => Nat.zero_le _
  simp only [expansionSteps]
  omega

end Brunomnia.Library
