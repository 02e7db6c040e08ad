import Mathlib.Data.List.Enum
import Mathlib.Data.List.Perm.Lattice
import Mathlib.Logic.Relation
import Brunomnia.Library.Closure
import Brunomnia.Library.Runs
import Brunomnia.SerdeJson

/-!
# Branches of environments

The native side keeps the environments of a project in one record for each branch. A branch is
collected from its root, parents before children. Roots are the environments without a parent in
the list and, after these, every environment that no branch has yet, for those whose parents lead
into a cycle. Ids are looked up in maps from ids to places; distinct ids make these the lookups
in the list that this file has.
-/

namespace Brunomnia.NativeStore

open Library Serde

/-! ## Environments -/

structure IndexedValue where
  index : ℕ
  value : Value

def maxFileIdChars : ℕ := 500

def validId (id : String) : Bool :=
  id ≠ "" ∧ id.length ≤ maxFileIdChars

def valueId (value : Value) : Option String :=
  ((value.get "id").bind Value.asStr).filter validId

def parentId (environment : Value) : String :=
  ((environment.get "parentId").bind Value.asStr).getD ""

/-- Every environment has an id, and no two of them have the same one. -/
def checkEnvironments (seenIds : List String) : List Value → Except String Unit
  | [] => .ok ()
  | environment :: rest =>
      match valueId environment with
      | none => .error "An environment file identity is invalid."
      | some id =>
          if id ∈ seenIds then .error ("Environment identity '" ++ id ++ "' is duplicated.")
          else checkEnvironments (id :: seenIds) rest

def environmentId (environment : Value) : String :=
  (valueId environment).getD ""

/-! ## Collecting -/

/-- The environments that name one as their parent, in the order of the list. -/
def childEnvironments (environments : List Value) (id : String) : List (Value × ℕ) :=
  environments.zipIdx.filter fun environment => parentId environment.1 = id

/-- Take environments from the queue until it is empty, and put the children of each behind it. -/
def collectBranch (environments : List Value) :
    ℕ → List (Value × ℕ) → List String → List IndexedValue × List String
  | 0, _, assigned | _, [], assigned => ([], assigned)
  | fuel + 1, environment :: pending, assigned =>
      if environmentId environment.1 ∈ assigned then
        collectBranch environments fuel pending assigned
      else
        let rest := collectBranch environments fuel
          (pending ++ childEnvironments environments (environmentId environment.1))
          (environmentId environment.1 :: assigned)
        ({ index := environment.2, value := environment.1 } :: rest.1, rest.2)

/-- The branches of roots that no earlier branch has, and the ids that are assigned after them. -/
def branchesFrom (environments : List Value) :
    List (Value × ℕ) → List String → List (String × List IndexedValue) × List String
  | [], assigned => ([], assigned)
  | root :: roots, assigned =>
      if environmentId root.1 ∈ assigned then branchesFrom environments roots assigned
      else
        let branch := collectBranch environments (environments.length + 1) [root] assigned
        let rest := branchesFrom environments roots branch.2
        if branch.1.isEmpty then rest
        else ((environmentId root.1, branch.1) :: rest.1, rest.2)

/-- An environment that names no parent, or one that is not in the list. -/
def isRoot (environments : List Value) (environment : Value) : Bool :=
  parentId environment = "" ∨ parentId environment ∉ environments.map environmentId

def branchRoots (environments : List Value) : List (Value × ℕ) :=
  environments.zipIdx.filter fun environment => isRoot environments environment.1

def environmentBranches (environments : List Value) :
    Except String (List (String × List IndexedValue)) :=
  (checkEnvironments [] environments).map fun _ =>
    (branchesFrom environments (branchRoots environments ++ environments.zipIdx) []).1

/-! ## What is expected -/

/-- Environments each of which has its parent among some ids or before it. -/
def Linked : List String → List IndexedValue → Prop
  | _, [] => True
  | known, part :: parts =>
      parentId part.value ∈ known ∧ Linked (environmentId part.value :: known) parts

/-- One environment names another one as its parent. -/
def IsParent (environments : List Value) (child parent : Value) : Prop :=
  parent ∈ environments ∧ parentId child = environmentId parent

/-- An environment, or one of its ancestors, has no parent in the list. -/
def IsRooted (environments : List Value) (environment : Value) : Prop :=
  ∃ root, Relation.ReflTransGen (IsParent environments) environment root ∧
    isRoot environments root = true

/-- A branch has the id of its root and starts with it, and goes on with descendants of it that
come after their parents. Unless its parents lead into a cycle, a root has none in the list. -/
structure IsBranch (environments : List Value) (branch : String × List IndexedValue) : Prop where
  linked : ∃ root rest, branch.2 = root :: rest ∧ environmentId root.value = branch.1 ∧
    Linked [branch.1] rest ∧
      (IsRooted environments root.value → isRoot environments root.value = true)

theorem IsBranch.root_or_cycle {environments : List Value}
    {branch : String × List IndexedValue} (isBranch : IsBranch environments branch) :
    ∃ root rest, branch.2 = root :: rest ∧ (isRoot environments root.value = true ∨
      ∃ looped, Relation.ReflTransGen (IsParent environments) root.value looped ∧
        Relation.TransGen (IsParent environments) looped looped) := by
  rcases isBranch.linked with ⟨root, rest, parts, _, _, rooted⟩
  refine ⟨root, rest, parts, ?_⟩
  by_cases isRooted : IsRooted environments root.value
  · exact .inl (rooted isRooted)
  · refine .inr (Library.exists_cycle (List.finite_toSet environments) _ ?_)
    intro ancestor reaches
    have notRoot : ¬ isRoot environments ancestor = true :=
      fun isRoot => isRooted ⟨ancestor, reaches, isRoot⟩
    simp only [isRoot, decide_eq_true_eq, not_or, not_not] at notRoot
    rcases List.mem_map.mp notRoot.2 with ⟨parent, parentMem, named⟩
    exact ⟨parent, parentMem, parentMem, named.symm⟩

/-! ## The search -/

section Search

variable {environments : List Value}

/-- What a search collects was not assigned before it, is assigned after it, and is collected
once. -/
structure Collects (environments : List Value) (assigned : List String)
    (parts : List IndexedValue) (after : List String) : Prop where
  ofList : ∀ part ∈ parts, (part.value, part.index) ∈ environments.zipIdx
  fresh : ∀ part ∈ parts, environmentId part.value ∉ assigned
  distinct : (parts.map fun part => environmentId part.value).Nodup
  mem_after : ∀ id, id ∈ after ↔
    id ∈ assigned ∨ id ∈ parts.map fun part => environmentId part.value

theorem Collects.nil (environments : List Value) (assigned : List String) :
    Collects environments assigned [] assigned := by
  constructor
  · simp
  · simp
  · simp
  · simp

theorem Collects.single {assigned : List String} {environment : Value × ℕ}
    (environmentMem : environment ∈ environments.zipIdx)
    (fresh : environmentId environment.1 ∉ assigned) :
    Collects environments assigned [{ index := environment.2, value := environment.1 }]
      (environmentId environment.1 :: assigned) := by
  constructor
  · simpa using environmentMem
  · simpa using fresh
  · simp
  · intro id
    simp only [List.mem_cons, List.map_cons, List.map_nil, List.not_mem_nil, or_false]
    exact or_comm

theorem Collects.append {assigned middle after : List String} {first rest : List IndexedValue}
    (firstCollects : Collects environments assigned first middle)
    (restCollects : Collects environments middle rest after) :
    Collects environments assigned (first ++ rest) after := by
  constructor
  · intro part partMem
    rcases List.mem_append.mp partMem with inFirst | inRest
    · exact firstCollects.ofList part inFirst
    · exact restCollects.ofList part inRest
  · intro part partMem
    rcases List.mem_append.mp partMem with inFirst | inRest
    · exact firstCollects.fresh part inFirst
    · intro earlier
      exact restCollects.fresh part inRest ((firstCollects.mem_after _).mpr (Or.inl earlier))
  · rw [List.map_append, List.nodup_append]
    refine ⟨firstCollects.distinct, restCollects.distinct, ?_⟩
    rintro id inFirst other inRest rfl
    rcases List.mem_map.mp inRest with ⟨part, partMem, rfl⟩
    exact restCollects.fresh part partMem ((firstCollects.mem_after _).mpr (Or.inr inFirst))
  · intro id
    rw [restCollects.mem_after, firstCollects.mem_after, List.map_append, List.mem_append, or_assoc]

theorem collectBranch_collects {fuel : ℕ} {pending : List (Value × ℕ)} {assigned : List String}
    (pendingMem : ∀ environment ∈ pending, environment ∈ environments.zipIdx) :
    Collects environments assigned (collectBranch environments fuel pending assigned).1
      (collectBranch environments fuel pending assigned).2 := by
  induction fuel generalizing pending assigned with
  | zero => exact Collects.nil environments assigned
  | succ fuel ih =>
      cases pending with
      | nil => exact Collects.nil environments assigned
      | cons environment pending =>
          have headMem := pendingMem environment List.mem_cons_self
          have tailMem : ∀ later ∈ pending, later ∈ environments.zipIdx := fun later laterMem =>
            pendingMem later (List.mem_cons_of_mem _ laterMem)
          unfold collectBranch
          split
          case isTrue => exact ih tailMem
          case isFalse fresh =>
            apply Collects.append (Collects.single headMem fresh)
            apply ih
            intro later laterMem
            rcases List.mem_append.mp laterMem with inPending | isChild
            · exact tailMem later inPending
            · exact List.mem_of_mem_filter isChild

theorem collectBranch_linked {fuel : ℕ} {pending : List (Value × ℕ)}
    {assigned known : List String}
    (pendingKnown : ∀ environment ∈ pending, parentId environment.1 ∈ known) :
    Linked known (collectBranch environments fuel pending assigned).1 := by
  induction fuel generalizing pending assigned known with
  | zero => trivial
  | succ fuel ih =>
      cases pending with
      | nil => trivial
      | cons environment pending =>
          unfold collectBranch
          split
          case isTrue =>
            exact ih fun later laterMem => pendingKnown later (List.mem_cons_of_mem _ laterMem)
          case isFalse =>
            refine ⟨pendingKnown environment List.mem_cons_self, ih ?_⟩
            intro later laterMem
            rcases List.mem_append.mp laterMem with inPending | isChild
            · exact List.mem_cons_of_mem _ (pendingKnown later (List.mem_cons_of_mem _ inPending))
            · have childOf := of_decide_eq_true (List.mem_filter.mp isChild).2
              rw [childOf]
              exact List.mem_cons_self

/-- The number of environments with a parent that is not assigned. -/
def openEnvironments (environments : List Value) (assigned : List String) : ℕ :=
  environments.zipIdx.countP fun environment => parentId environment.1 ∉ assigned

theorem openEnvironments_cons {assigned : List String} {id : String} (fresh : id ∉ assigned) :
    openEnvironments environments (id :: assigned) + (childEnvironments environments id).length =
      openEnvironments environments assigned := by
  unfold openEnvironments childEnvironments
  rw [← List.countP_eq_length_filter]
  induction environments.zipIdx with
  | nil => rfl
  | cons environment rest ih =>
      simp only [List.countP_cons, List.mem_cons] at ih ⊢
      by_cases isChild : parentId environment.1 = id
      · simp only [isChild, fresh, true_or, not_true, not_false_eq_true, decide_true, decide_false,
          if_true, Bool.false_eq_true, if_false]
        omega
      · simp only [isChild, false_or, decide_false, Bool.false_eq_true, if_false]
        omega

/-- Assigned ids with all of their children. -/
def ClosedUnderChildren (environments : List Value) (assigned : List String) : Prop :=
  ∀ id ∈ assigned, ∀ child ∈ childEnvironments environments id, environmentId child.1 ∈ assigned

/-- The queue is empty before the fuel is used up, since every environment enters it once, after
its parent. So whatever was in the queue and all of its descendants are assigned in the end. -/
theorem collectBranch_closed {fuel : ℕ} {pending : List (Value × ℕ)} {assigned : List String}
    (pendingMem : ∀ environment ∈ pending, environment ∈ environments.zipIdx)
    (enough : pending.length + openEnvironments environments assigned ≤ fuel)
    (closed : ∀ id ∈ assigned, ∀ child ∈ childEnvironments environments id,
      environmentId child.1 ∈ assigned ∨ child ∈ pending) :
    ClosedUnderChildren environments (collectBranch environments fuel pending assigned).2 ∧
      ∀ environment ∈ pending,
        environmentId environment.1 ∈ (collectBranch environments fuel pending assigned).2 := by
  induction fuel generalizing pending assigned with
  | zero =>
      have empty : pending = [] := List.length_eq_zero_iff.mp (by omega)
      subst empty
      exact ⟨by simpa [ClosedUnderChildren, collectBranch] using closed, by simp⟩
  | succ fuel ih =>
      cases pending with
      | nil => exact ⟨by simpa [ClosedUnderChildren, collectBranch] using closed, by simp⟩
      | cons environment pending =>
          have tailMem : ∀ later ∈ pending, later ∈ environments.zipIdx := fun later laterMem =>
            pendingMem later (List.mem_cons_of_mem _ laterMem)
          rw [List.length_cons] at enough
          by_cases taken : environmentId environment.1 ∈ assigned
          · rw [collectBranch, if_pos taken]
            have kept : environmentId environment.1 ∈
                (collectBranch environments fuel pending assigned).2 :=
              ((collectBranch_collects tailMem).mem_after _).mpr (Or.inl taken)
            have stillClosed : ∀ id ∈ assigned, ∀ child ∈ childEnvironments environments id,
                environmentId child.1 ∈ assigned ∨ child ∈ pending := by
              intro id idMem child childMem
              rcases closed id idMem child childMem with before | inQueue
              · exact Or.inl before
              · rcases List.mem_cons.mp inQueue with rfl | later
                · exact Or.inl taken
                · exact Or.inr later
            rcases ih tailMem (by omega) stillClosed with ⟨allClosed, covered⟩
            refine ⟨allClosed, ?_⟩
            intro later laterMem
            rcases List.mem_cons.mp laterMem with rfl | inRest
            · exact kept
            · exact covered later inRest
          · have fewer : openEnvironments environments (environmentId environment.1 :: assigned) +
                (childEnvironments environments (environmentId environment.1)).length =
                openEnvironments environments assigned := openEnvironments_cons taken
            have queueMem : ∀ later ∈ pending ++
                childEnvironments environments (environmentId environment.1),
                later ∈ environments.zipIdx := by
              intro later laterMem
              rcases List.mem_append.mp laterMem with inPending | isChild
              · exact tailMem later inPending
              · exact List.mem_of_mem_filter isChild
            have stillClosed : ∀ id ∈ environmentId environment.1 :: assigned,
                ∀ child ∈ childEnvironments environments id,
                  environmentId child.1 ∈ environmentId environment.1 :: assigned ∨
                    child ∈ pending ++
                      childEnvironments environments (environmentId environment.1) := by
              intro id idMem child childMem
              rcases List.mem_cons.mp idMem with rfl | before
              · exact Or.inr (List.mem_append_right _ childMem)
              · rcases closed id before child childMem with wasAssigned | inQueue
                · exact Or.inl (List.mem_cons_of_mem _ wasAssigned)
                · rcases List.mem_cons.mp inQueue with rfl | later
                  · exact Or.inl List.mem_cons_self
                  · exact Or.inr (List.mem_append_left _ later)
            rcases ih queueMem (by rw [List.length_append]; omega) stillClosed with
              ⟨allClosed, covered⟩
            rw [collectBranch, if_neg taken]
            refine ⟨allClosed, ?_⟩
            intro later laterMem
            rcases List.mem_cons.mp laterMem with rfl | inRest
            · exact ((collectBranch_collects queueMem).mem_after _).mpr (Or.inl List.mem_cons_self)
            · exact covered later (List.mem_append_left _ inRest)

end Search

/-! ## The branches -/

section Branches

variable {environments : List Value} {roots : List (Value × ℕ)} {assigned : List String}

/-- The branch of a root that is not assigned: the root, and its descendants behind it. -/
structure CollectsRoot (environments : List Value) (root : Value × ℕ) (assigned : List String)
    (rest : List IndexedValue) (after : List String) : Prop where
  branch : collectBranch environments (environments.length + 1) [root] assigned =
    ({ index := root.2, value := root.1 } :: rest, after)
  linked : Linked [environmentId root.1] rest
  collects : Collects environments assigned ({ index := root.2, value := root.1 } :: rest) after
  closed : ClosedUnderChildren environments assigned → ClosedUnderChildren environments after

theorem collectBranch_root {root : Value × ℕ} (rootMem : root ∈ environments.zipIdx)
    (fresh : environmentId root.1 ∉ assigned) :
    ∃ rest after, CollectsRoot environments root assigned rest after := by
  have pendingMem : ∀ environment ∈ [root], environment ∈ environments.zipIdx := by
    simpa using rootMem
  have branch : ∃ rest after, collectBranch environments (environments.length + 1) [root]
      assigned = ({ index := root.2, value := root.1 } :: rest, after) ∧
        Linked [environmentId root.1] rest := by
    rw [collectBranch, if_neg fresh]
    refine ⟨_, _, rfl, collectBranch_linked ?_⟩
    intro child childMem
    rw [List.nil_append] at childMem
    rw [of_decide_eq_true (List.mem_filter.mp childMem).2]
    exact List.mem_cons_self
  rcases branch with ⟨rest, after, branchEq, linked⟩
  refine ⟨rest, after, branchEq, linked, ?_, ?_⟩
  · have collects : Collects environments assigned
        (collectBranch environments (environments.length + 1) [root] assigned).1
        (collectBranch environments (environments.length + 1) [root] assigned).2 :=
      collectBranch_collects pendingMem
    rwa [branchEq] at collects
  · intro closed
    have few : openEnvironments environments assigned ≤ environments.zipIdx.length :=
      List.countP_le_length
    rw [List.length_zipIdx] at few
    have allClosed : ClosedUnderChildren environments
        (collectBranch environments (environments.length + 1) [root] assigned).2 :=
      (collectBranch_closed pendingMem (by rw [List.length_singleton]; omega)
        fun id idMem child childMem => Or.inl (closed id idMem child childMem)).1
    rwa [branchEq] at allClosed

theorem branchesFrom_collects (rootsMem : ∀ root ∈ roots, root ∈ environments.zipIdx) :
    Collects environments assigned ((branchesFrom environments roots assigned).1.flatMap Prod.snd)
        (branchesFrom environments roots assigned).2 ∧
      ∀ root ∈ roots, environmentId root.1 ∈ (branchesFrom environments roots assigned).2 := by
  induction roots generalizing assigned with
  | nil => exact ⟨Collects.nil environments assigned, by simp⟩
  | cons root roots ih =>
      have restMem : ∀ later ∈ roots, later ∈ environments.zipIdx := fun later laterMem =>
        rootsMem later (List.mem_cons_of_mem _ laterMem)
      unfold branchesFrom
      by_cases taken : environmentId root.1 ∈ assigned
      · rw [if_pos taken]
        rcases ih restMem with ⟨collects, covered⟩
        refine ⟨collects, ?_⟩
        intro later laterMem
        rcases List.mem_cons.mp laterMem with rfl | inRest
        · exact (collects.mem_after _).mpr (Or.inl taken)
        · exact covered later inRest
      · rw [if_neg taken]
        rcases collectBranch_root (rootsMem root List.mem_cons_self) taken with
          ⟨rest, after, collectsRoot⟩
        rcases ih restMem with ⟨collects, covered⟩
        simp only [collectsRoot.branch, List.isEmpty_cons, Bool.false_eq_true, if_false,
          List.flatMap_cons]
        refine ⟨collectsRoot.collects.append collects, ?_⟩
        intro later laterMem
        rcases List.mem_cons.mp laterMem with rfl | inRest
        · refine (collects.mem_after _).mpr (Or.inl ((collectsRoot.collects.mem_after _).mpr ?_))
          exact Or.inr (List.mem_map_of_mem List.mem_cons_self)
        · exact covered later inRest

/-- Branches start with roots that had not been assigned, and leave closed ids closed. -/
theorem branchesFrom_isBranch (rootsMem : ∀ root ∈ roots, root ∈ environments.zipIdx)
    (closed : ClosedUnderChildren environments assigned)
    (starts : ∀ root ∈ roots, IsRooted environments root.1 →
      isRoot environments root.1 = true ∨ environmentId root.1 ∈ assigned) :
    ClosedUnderChildren environments (branchesFrom environments roots assigned).2 ∧
      ∀ branch ∈ (branchesFrom environments roots assigned).1, IsBranch environments branch := by
  induction roots generalizing assigned with
  | nil => exact ⟨closed, by simp [branchesFrom]⟩
  | cons root roots ih =>
      have restMem : ∀ later ∈ roots, later ∈ environments.zipIdx := fun later laterMem =>
        rootsMem later (List.mem_cons_of_mem _ laterMem)
      unfold branchesFrom
      by_cases taken : environmentId root.1 ∈ assigned
      · rw [if_pos taken]
        exact ih restMem closed fun later laterMem => starts later (List.mem_cons_of_mem _ laterMem)
      · rw [if_neg taken]
        rcases collectBranch_root (rootsMem root List.mem_cons_self) taken with
          ⟨rest, after, collectsRoot⟩
        have stillStarts : ∀ later ∈ roots, IsRooted environments later.1 →
            isRoot environments later.1 = true ∨ environmentId later.1 ∈ after := by
          intro later laterMem rooted
          rcases starts later (List.mem_cons_of_mem _ laterMem) rooted with isRoot | before
          · exact Or.inl isRoot
          · exact Or.inr ((collectsRoot.collects.mem_after _).mpr (Or.inl before))
        rcases ih restMem (collectsRoot.closed closed) stillStarts with ⟨allClosed, branches⟩
        simp only [collectsRoot.branch, List.isEmpty_cons, Bool.false_eq_true, if_false]
        refine ⟨allClosed, List.forall_mem_cons.mpr ⟨⟨_, rest, rfl, rfl, ?_, ?_⟩, branches⟩⟩
        · exact collectsRoot.linked
        · intro rooted
          rcases starts root List.mem_cons_self rooted with isRoot | before
          · exact isRoot
          · exact absurd before taken

theorem branchesFrom_cons (root : Value × ℕ) (roots : List (Value × ℕ)) (assigned : List String) :
    branchesFrom environments (root :: roots) assigned =
      if environmentId root.1 ∈ assigned then branchesFrom environments roots assigned
      else
        let branch := collectBranch environments (environments.length + 1) [root] assigned
        let rest := branchesFrom environments roots branch.2
        if branch.1.isEmpty then rest
        else ((environmentId root.1, branch.1) :: rest.1, rest.2) := rfl

theorem branchesFrom_append (first rest : List (Value × ℕ)) (assigned : List String) :
    (branchesFrom environments (first ++ rest) assigned).1 =
      (branchesFrom environments first assigned).1 ++
        (branchesFrom environments rest (branchesFrom environments first assigned).2).1 := by
  induction first generalizing assigned with
  | nil => rfl
  | cons root first ih =>
      rw [List.cons_append, branchesFrom_cons root (first ++ rest), branchesFrom_cons root first]
      split
      case isTrue => exact ih assigned
      case isFalse =>
        dsimp only
        split
        case isTrue => exact ih _
        case isFalse => exact congrArg (List.cons _) (ih _)

theorem checkEnvironments_eq_ok {seenIds : List String}
    (checked : checkEnvironments seenIds environments = .ok ()) :
    (∀ environment ∈ environments, environmentId environment ∉ seenIds) ∧
      (environments.map environmentId).Nodup := by
  induction environments generalizing seenIds with
  | nil => simp
  | cons environment rest ih =>
      unfold checkEnvironments at checked
      cases idEq : valueId environment with
      | none =>
          simp only [idEq] at checked
          cases checked
      | some id =>
          have isId : environmentId environment = id := by simp [environmentId, idEq]
          simp only [idEq] at checked
          split at checked
          case isTrue => cases checked
          case isFalse fresh =>
            rcases ih checked with ⟨restFresh, restNodup⟩
            constructor
            · intro member memberMem
              rcases List.mem_cons.mp memberMem with rfl | later
              · rwa [isId]
              · exact fun taken => restFresh member later (List.mem_cons_of_mem _ taken)
            · rw [List.map_cons, List.nodup_cons]
              refine ⟨?_, restNodup⟩
              intro again
              rcases List.mem_map.mp again with ⟨later, laterMem, same⟩
              apply restFresh later laterMem
              rw [same, isId]
              exact List.mem_cons_self

theorem assigned_of_isRooted (closed : ClosedUnderChildren environments assigned)
    (rootsAssigned : ∀ root ∈ environments, isRoot environments root = true →
      environmentId root ∈ assigned)
    {environment : Value} (environmentMem : environment ∈ environments)
    (rooted : IsRooted environments environment) : environmentId environment ∈ assigned := by
  rcases rooted with ⟨root, reaches, isRoot⟩
  induction reaches using Relation.ReflTransGen.head_induction_on with
  | refl => exact rootsAssigned root environmentMem isRoot
  | @head child parent isParent _ ih =>
      rcases List.getElem?_of_mem environmentMem with ⟨index, found⟩
      apply closed _ (ih isParent.1) (child, index)
      apply List.mem_filter.mpr
      exact ⟨List.mem_zipIdx_iff_getElem?.mpr found, decide_eq_true isParent.2⟩

theorem mem_roots {root : Value × ℕ} :
    root ∈ branchRoots environments ++ environments.zipIdx ↔ root ∈ environments.zipIdx := by
  rw [List.mem_append]
  constructor
  · rintro (isRoot | listed)
    · exact List.mem_of_mem_filter isRoot
    · exact listed
  · exact Or.inr

theorem perm_of_collects (distinct : (environments.map environmentId).Nodup)
    {parts : List IndexedValue} {after : List String}
    (collects : Collects environments [] parts after)
    (covered : ∀ environment ∈ environments.zipIdx, environmentId environment.1 ∈ after) :
    (parts.map fun part => (part.value, part.index)).Perm environments.zipIdx := by
  have places : (environments.zipIdx.map fun environment => environmentId environment.1).Nodup := by
    rw [← List.zipIdx_map_fst 0 environments, List.map_map] at distinct
    exact distinct
  have partsDistinct : (parts.map fun part => (part.value, part.index)).Nodup := by
    apply List.Nodup.of_map fun environment : Value × ℕ => environmentId environment.1
    rw [List.map_map]
    exact collects.distinct
  rw [List.perm_ext_iff_of_nodup partsDistinct places.of_map]
  intro environment
  constructor
  · intro isPart
    rcases List.mem_map.mp isPart with ⟨part, partMem, rfl⟩
    exact collects.ofList part partMem
  · intro listed
    rcases (collects.mem_after _).mp (covered environment listed) with before | isPart
    · cases before
    · rcases List.mem_map.mp isPart with ⟨part, partMem, sameId⟩
      have same : (part.value, part.index) = environment :=
        List.inj_on_of_nodup_map places (collects.ofList part partMem) listed sameId
      exact same ▸ List.mem_map_of_mem partMem

theorem branchIds_sublist {branches : List (String × List IndexedValue)}
    (areBranches : ∀ branch ∈ branches, IsBranch environments branch) :
    (branches.map Prod.fst).Sublist
      ((branches.flatMap Prod.snd).map fun part => environmentId part.value) := by
  induction branches with
  | nil => exact List.Sublist.refl _
  | cons branch branches ih =>
      rw [List.forall_mem_cons] at areBranches
      rcases areBranches.1.linked with ⟨root, rest, branchEq, isId, _⟩
      rw [List.map_cons, List.flatMap_cons, branchEq, List.cons_append, List.map_cons, isId,
        List.map_append]
      exact ((ih areBranches.2).trans (List.sublist_append_right _ _)).cons_cons _

/-- Every environment is in exactly one branch, with its place in the list, and only those are
without their parent that have none in the list or whose parents lead into a cycle. -/
theorem environmentBranches_divide {branches : List (String × List IndexedValue)}
    (made : environmentBranches environments = .ok branches) :
    ((branches.flatMap Prod.snd).map fun part => (part.value, part.index)).Perm
        environments.zipIdx ∧
      (branches.map Prod.fst).Nodup ∧
      ∀ branch ∈ branches, IsBranch environments branch := by
  rcases map_eq_ok.mp made with ⟨_, checked, rfl⟩
  have distinct := (checkEnvironments_eq_ok checked).2
  have allMem : ∀ root ∈ branchRoots environments ++ environments.zipIdx,
      root ∈ environments.zipIdx := fun _ => mem_roots.mp
  have rootsMem : ∀ root ∈ branchRoots environments, root ∈ environments.zipIdx :=
    fun _ => List.mem_of_mem_filter
  have collects : Collects environments []
      ((branchesFrom environments (branchRoots environments ++ environments.zipIdx) []).1.flatMap
        Prod.snd)
      (branchesFrom environments (branchRoots environments ++ environments.zipIdx) []).2 :=
    (branchesFrom_collects allMem).1
  have areBranches : ∀ branch ∈ (branchesFrom environments
      (branchRoots environments ++ environments.zipIdx) []).1, IsBranch environments branch := by
    have noneYet : ClosedUnderChildren environments [] := by simp [ClosedUnderChildren]
    rcases branchesFrom_isBranch rootsMem noneYet fun root rootMem _ =>
      Or.inl (List.mem_filter.mp rootMem).2 with ⟨closed, fromRoots⟩
    have rootsAssigned : ∀ root ∈ environments, isRoot environments root = true →
        environmentId root ∈ (branchesFrom environments (branchRoots environments) []).2 := by
      intro root rootMem rootIs
      rcases List.getElem?_of_mem rootMem with ⟨index, found⟩
      apply (branchesFrom_collects rootsMem).2 (root, index)
      exact List.mem_filter.mpr ⟨List.mem_zipIdx_iff_getElem?.mpr found, rootIs⟩
    rw [branchesFrom_append]
    intro branch branchMem
    rcases List.mem_append.mp branchMem with isFirst | isLater
    · exact fromRoots branch isFirst
    · refine (branchesFrom_isBranch (fun _ listed => listed) closed ?_).2 branch isLater
      intro root rootMem rooted
      exact Or.inr (assigned_of_isRooted closed rootsAssigned
        (List.fst_mem_of_mem_zipIdx rootMem) rooted)
  refine ⟨perm_of_collects distinct collects fun environment listed =>
    (branchesFrom_collects allMem).2 environment (mem_roots.mpr listed), ?_, areBranches⟩
  exact collects.distinct.sublist (branchIds_sublist areBranches)

end Branches

def environmentNamed (id parentId : String) : Value :=
  .object [("id", .string id), ("parentId", .string parentId)]

/-- Two environments that are each other's parent, with one below them in front. -/
def loopedEnvironments : List Value :=
  [environmentNamed "below" "left", environmentNamed "left" "right",
    environmentNamed "right" "left", environmentNamed "base" "", environmentNamed "test" "base"]

def loopedBranches : List (String × List IndexedValue) :=
  [("base", [⟨3, environmentNamed "base" ""⟩, ⟨4, environmentNamed "test" "base"⟩]),
    ("below", [⟨0, environmentNamed "below" "left"⟩]),
    ("left", [⟨1, environmentNamed "left" "right"⟩, ⟨2, environmentNamed "right" "left"⟩])]

/-- What is below a cycle can be without its parent. -/
theorem loopedEnvironments_divide :
    ((loopedBranches.flatMap Prod.snd).map fun part => (part.value, part.index)).Perm
        loopedEnvironments.zipIdx ∧
      (loopedBranches.map Prod.fst).Nodup ∧
      ∀ branch ∈ loopedBranches, IsBranch loopedEnvironments branch :=
  environmentBranches_divide (by rfl)

end Brunomnia.NativeStore
