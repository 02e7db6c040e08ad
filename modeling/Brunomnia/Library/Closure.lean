import Mathlib

/-!
# Closures of forests computed in passes

A collection of nodes, each with an identity and at most one upward link, is
searched downward by repeated passes: a pass walks the nodes in order and adds
every node whose link is already selected. This file proves that as many passes
as there are nodes reach the least closed selection, and characterizes it by
the transitive closure of the link relation.

It also collects the facts about acyclic link relations used when a part of one
forest is transplanted into another one.
-/

namespace Brunomnia.Library

universe u v

section Closure

variable {Node : Type u} {Id : Type v} [DecidableEq Id]
  (ident : Node → Id) (link : Node → Option Id)

/-- One identity points at another one through a node of the list. -/
def Linked (nodes : List Node) (child parent : Id) : Prop :=
  ∃ node ∈ nodes, ident node = child ∧ link node = some parent

/-- A selection is closed when it contains every node linked into it. -/
def Closed (nodes : List Node) (selected : List Id) : Prop :=
  ∀ node ∈ nodes, ∀ parent, link node = some parent → parent ∈ selected →
    ident node ∈ selected

/-- Select one node when its link is already selected. -/
def closureVisit (selected : List Id) (node : Node) : List Id :=
  match link node with
  | some parent =>
      if parent ∈ selected ∧ ident node ∉ selected then selected ++ [ident node] else selected
  | none => selected

/-- One pass over all nodes, later nodes seeing the additions of earlier ones. -/
def closurePass (nodes : List Node) (selected : List Id) : List Id :=
  nodes.foldl (closureVisit ident link) selected

/-- Repeat passes until one of them changes nothing or the fuel is used up. -/
def closurePasses (nodes : List Node) : ℕ → List Id → List Id
  | 0, selected => selected
  | fuel + 1, selected =>
      if closurePass ident link nodes selected = selected then selected
      else closurePasses nodes fuel (closurePass ident link nodes selected)

variable {ident link}

theorem closureVisit_eq_append (ident : Node → Id) (link : Node → Option Id)
    (selected : List Id) (node : Node) :
    ∃ added, closureVisit ident link selected node = selected ++ added := by
  unfold closureVisit
  cases link node with
  | none => exact ⟨[], by simp⟩
  | some parent =>
      by_cases selects : parent ∈ selected ∧ ident node ∉ selected
      · exact ⟨[ident node], by simp [selects]⟩
      · exact ⟨[], by simp [selects]⟩

theorem closurePass_eq_append (ident : Node → Id) (link : Node → Option Id)
    (nodes : List Node) (selected : List Id) :
    ∃ added, closurePass ident link nodes selected = selected ++ added := by
  induction nodes generalizing selected with
  | nil => exact ⟨[], by simp [closurePass]⟩
  | cons node rest ih =>
      rcases closureVisit_eq_append ident link selected node with
        ⟨first, firstEq⟩
      rcases ih (selected ++ first) with ⟨second, secondEq⟩
      refine ⟨first ++ second, ?_⟩
      simp only [closurePass, List.foldl_cons, firstEq] at secondEq ⊢
      rw [secondEq, List.append_assoc]

theorem mem_closurePass_of_mem {nodes : List Node} {selected : List Id} {id : Id}
    (selectedMem : id ∈ selected) : id ∈ closurePass ident link nodes selected := by
  rcases closurePass_eq_append ident link nodes selected with
    ⟨added, addedEq⟩
  rw [addedEq]
  exact List.mem_append_left _ selectedMem

theorem ident_mem_closurePass {nodes : List Node} {selected : List Id} {node : Node}
    {parent : Id} (nodeMem : node ∈ nodes) (linked : link node = some parent)
    (parentMem : parent ∈ selected) :
    ident node ∈ closurePass ident link nodes selected := by
  induction nodes generalizing selected with
  | nil => simp at nodeMem
  | cons head rest ih =>
      rcases closureVisit_eq_append ident link selected head with
        ⟨added, addedEq⟩
      change ident node ∈ closurePass ident link rest (closureVisit ident link selected head)
      rcases List.mem_cons.mp nodeMem with rfl | restMem
      · apply mem_closurePass_of_mem
        unfold closureVisit
        rw [linked]
        by_cases present : ident node ∈ selected
        · simp [present]
        · simp [parentMem, present]
      · apply ih restMem
        rw [addedEq]
        exact List.mem_append_left _ parentMem

theorem closed_of_closurePass_eq {nodes : List Node} {selected : List Id}
    (stable : closurePass ident link nodes selected = selected) :
    Closed ident link nodes selected := by
  intro node nodeMem parent linked parentMem
  rw [← stable]
  exact ident_mem_closurePass nodeMem linked parentMem

/-- The nodes a selection does not contain yet. -/
def unselected (ident : Node → Id) (nodes : List Node) (selected : List Id) : List Node :=
  nodes.filter fun node => decide (ident node ∉ selected)

/-- Everything a pass adds is the identity of a node linked into the result. -/
theorem mem_closurePass {nodes : List Node} {selected : List Id} {id : Id}
    (passMem : id ∈ closurePass ident link nodes selected) :
    id ∈ selected ∨ ∃ node ∈ nodes, ident node = id ∧ ∃ parent, link node = some parent ∧
      parent ∈ closurePass ident link nodes selected := by
  induction nodes generalizing selected with
  | nil => exact Or.inl passMem
  | cons head rest ih =>
      change id ∈ closurePass ident link rest (closureVisit ident link selected head) at passMem
      change id ∈ selected ∨ ∃ node ∈ head :: rest, ident node = id ∧ ∃ parent,
        link node = some parent ∧
          parent ∈ closurePass ident link rest (closureVisit ident link selected head)
      rcases ih passMem with visitMem | ⟨node, nodeMem, idEq, parent, linked, parentMem⟩
      · unfold closureVisit at visitMem
        cases linkEq : link head with
        | none =>
            rw [linkEq] at visitMem
            exact Or.inl visitMem
        | some parent =>
            rw [linkEq] at visitMem
            by_cases selects : parent ∈ selected ∧ ident head ∉ selected
            · simp only [selects, not_false_eq_true, and_self, if_true, List.mem_append,
                List.mem_singleton] at visitMem
              rcases visitMem with old | rfl
              · exact Or.inl old
              · right
                refine ⟨head, List.mem_cons_self, rfl, parent, linkEq, ?_⟩
                apply mem_closurePass_of_mem
                rcases closureVisit_eq_append ident link selected head with
                  ⟨added, addedEq⟩
                rw [addedEq]
                exact List.mem_append_left _ selects.1
            · simp only [selects, if_false] at visitMem
              exact Or.inl visitMem
      · exact Or.inr ⟨node, List.mem_cons_of_mem _ nodeMem, idEq, parent, linked, parentMem⟩

/-- A pass that changes the selection selects a node that was not selected before. -/
theorem exists_newly_selected {nodes : List Node} {selected : List Id}
    (changed : closurePass ident link nodes selected ≠ selected) :
    ∃ node ∈ nodes, ident node ∉ selected ∧
      ident node ∈ closurePass ident link nodes selected := by
  induction nodes generalizing selected with
  | nil => exact absurd rfl changed
  | cons head rest ih =>
      change closurePass ident link rest (closureVisit ident link selected head) ≠ selected
        at changed
      by_cases visited : closureVisit ident link selected head = selected
      · rw [visited] at changed
        rcases ih changed with ⟨node, nodeMem, fresh, passMem⟩
        refine ⟨node, List.mem_cons_of_mem _ nodeMem, fresh, ?_⟩
        change ident node ∈ closurePass ident link rest (closureVisit ident link selected head)
        rwa [visited]
      · refine ⟨head, List.mem_cons_self, ?_⟩
        change _ ∧ ident head ∈
          closurePass ident link rest (closureVisit ident link selected head)
        unfold closureVisit at visited ⊢
        cases linkEq : link head with
        | none => simp [linkEq] at visited
        | some parent =>
            by_cases selects : parent ∈ selected ∧ ident head ∉ selected
            · refine ⟨selects.2, ?_⟩
              apply mem_closurePass_of_mem
              simp [selects]
            · simp [linkEq, selects] at visited

theorem unselected_length_lt {nodes : List Node} {selected : List Id}
    (changed : closurePass ident link nodes selected ≠ selected) :
    (unselected ident nodes (closurePass ident link nodes selected)).length <
      (unselected ident nodes selected).length := by
  rcases exists_newly_selected changed with ⟨node, nodeMem, fresh, passMem⟩
  have shrinks : unselected ident nodes (closurePass ident link nodes selected) =
      (unselected ident nodes selected).filter fun candidate =>
        decide (ident candidate ∉ closurePass ident link nodes selected) := by
    unfold unselected
    rw [List.filter_filter]
    apply List.filter_congr
    intro candidate _
    by_cases later : ident candidate ∈ closurePass ident link nodes selected
    · simp [later]
    · have earlier : ident candidate ∉ selected := fun mem => later (mem_closurePass_of_mem mem)
      simp [later, earlier]
  rw [shrinks]
  apply lt_of_le_of_ne (List.length_filter_le _ _)
  intro lengthEq
  have kept := List.length_filter_eq_length_iff.mp lengthEq node
    (List.mem_filter.mpr ⟨nodeMem, by simpa using fresh⟩)
  simp [passMem] at kept

/-- Passes never drop a selected identity. -/
theorem mem_closurePasses_of_mem {nodes : List Node} {fuel : ℕ} {selected : List Id} {id : Id}
    (selectedMem : id ∈ selected) : id ∈ closurePasses ident link nodes fuel selected := by
  induction fuel generalizing selected with
  | zero => exact selectedMem
  | succ fuel ih =>
      unfold closurePasses
      split
      · exact selectedMem
      · exact ih (mem_closurePass_of_mem selectedMem)

theorem closurePasses_closed {nodes : List Node} {fuel : ℕ} {selected : List Id}
    (enough : (unselected ident nodes selected).length ≤ fuel) :
    Closed ident link nodes (closurePasses ident link nodes fuel selected) := by
  induction fuel generalizing selected with
  | zero =>
      intro node nodeMem parent _ _
      by_contra missing
      have present : node ∈ unselected ident nodes selected :=
        List.mem_filter.mpr ⟨nodeMem, by simpa [closurePasses] using missing⟩
      have := List.length_pos_of_mem present
      omega
  | succ fuel ih =>
      unfold closurePasses
      split
      · next stable => exact closed_of_closurePass_eq stable
      · next changed =>
          apply ih
          have := unselected_length_lt changed
          omega

theorem mem_closurePasses {nodes : List Node} {fuel : ℕ} {selected : List Id} {id : Id}
    (passesMem : id ∈ closurePasses ident link nodes fuel selected) :
    id ∈ selected ∨ ∃ node ∈ nodes, ident node = id ∧ ∃ parent, link node = some parent ∧
      parent ∈ closurePasses ident link nodes fuel selected := by
  induction fuel generalizing selected with
  | zero => exact Or.inl passesMem
  | succ fuel ih =>
      unfold closurePasses at passesMem ⊢
      split at passesMem
      · exact Or.inl passesMem
      · next changed =>
          simp only [changed, if_false]
          rcases ih passesMem with passMem | found
          · rcases mem_closurePass passMem with old | ⟨node, nodeMem, idEq, parent, linked, mem⟩
            · exact Or.inl old
            · exact Or.inr ⟨node, nodeMem, idEq, parent, linked, mem_closurePasses_of_mem mem⟩
          · exact Or.inr found

/-- Every selected identity reaches an initial one through links. -/
theorem reaches_of_mem_closurePasses {nodes : List Node} {fuel : ℕ} {selected : List Id}
    {id : Id} (passesMem : id ∈ closurePasses ident link nodes fuel selected) :
    ∃ root ∈ selected, Relation.ReflTransGen (Linked ident link nodes) id root := by
  have passReaches : ∀ (rest : List Node), (∀ node ∈ rest, node ∈ nodes) →
      ∀ (current : List Id), (∀ id ∈ current, ∃ root ∈ selected,
        Relation.ReflTransGen (Linked ident link nodes) id root) →
      ∀ id ∈ closurePass ident link rest current, ∃ root ∈ selected,
        Relation.ReflTransGen (Linked ident link nodes) id root := by
    intro rest
    induction rest with
    | nil => exact fun _ current reaches id mem => reaches id mem
    | cons head rest ih =>
        intro within current reaches
        apply ih (fun node mem => within node (List.mem_cons_of_mem _ mem))
        intro id visitMem
        unfold closureVisit at visitMem
        cases linkEq : link head with
        | none =>
            rw [linkEq] at visitMem
            exact reaches id visitMem
        | some parent =>
            rw [linkEq] at visitMem
            by_cases selects : parent ∈ current ∧ ident head ∉ current
            · simp only [selects, not_false_eq_true, and_self, if_true, List.mem_append,
                List.mem_singleton] at visitMem
              rcases visitMem with old | rfl
              · exact reaches id old
              · rcases reaches parent selects.1 with ⟨root, rootMem, path⟩
                exact ⟨root, rootMem, Relation.ReflTransGen.head
                  ⟨head, within head List.mem_cons_self, rfl, linkEq⟩ path⟩
            · simp only [selects, if_false] at visitMem
              exact reaches id visitMem
  have passesReach : ∀ (fuel : ℕ) (current : List Id), (∀ id ∈ current, ∃ root ∈ selected,
        Relation.ReflTransGen (Linked ident link nodes) id root) →
      ∀ id ∈ closurePasses ident link nodes fuel current, ∃ root ∈ selected,
        Relation.ReflTransGen (Linked ident link nodes) id root := by
    intro fuel
    induction fuel with
    | zero => exact fun current reaches id mem => reaches id mem
    | succ fuel ih =>
        intro current reaches id mem
        unfold closurePasses at mem
        split at mem
        · exact reaches id mem
        · exact ih _ (passReaches nodes (fun _ mem => mem) current reaches) id mem
  exact passesReach fuel selected (fun id mem => ⟨id, mem, Relation.ReflTransGen.refl⟩) id passesMem

omit [DecidableEq Id] in
theorem Closed.mem_of_reaches {nodes : List Node} {selected : List Id}
    (closed : Closed ident link nodes selected) {id root : Id}
    (path : Relation.ReflTransGen (Linked ident link nodes) id root)
    (rootMem : root ∈ selected) : id ∈ selected := by
  induction path using Relation.ReflTransGen.head_induction_on with
  | refl => exact rootMem
  | head step _ ih =>
      rcases step with ⟨node, nodeMem, rfl, linked⟩
      exact closed node nodeMem _ linked ih

theorem mem_closurePasses_length_iff {nodes : List Node} {selected : List Id} {id : Id} {fuel : ℕ}
    (enough : nodes.length ≤ fuel) :
    id ∈ closurePasses ident link nodes fuel selected ↔
      ∃ root ∈ selected, Relation.ReflTransGen (Linked ident link nodes) id root := by
  constructor
  · exact reaches_of_mem_closurePasses
  · rintro ⟨root, rootMem, path⟩
    exact (closurePasses_closed ((List.length_filter_le _ _).trans enough)).mem_of_reaches path
      (mem_closurePasses_of_mem rootMem)

end Closure

section Acyclic

variable {Id : Type v}

/-- No element reaches itself by one or more steps. -/
def Acyclic (relation : Id → Id → Prop) : Prop :=
  ∀ id, ¬ Relation.TransGen relation id id

theorem Acyclic.mono {finer coarser : Id → Id → Prop} (acyclic : Acyclic coarser)
    (included : ∀ child parent, finer child parent → coarser child parent) :
    Acyclic finer :=
  fun id cycle => acyclic id (Relation.TransGen.mono included id id cycle)

theorem Acyclic.of_rank {relation : Id → Id → Prop} (rank : Id → ℕ)
    (falls : ∀ child parent, relation child parent → rank parent < rank child) :
    Acyclic relation := by
  intro id cycle
  have below : ∀ other, Relation.TransGen relation id other → rank other < rank id := by
    intro other path
    induction path with
    | single linked => exact falls _ _ linked
    | tail _ linked ih => exact (falls _ _ linked).trans ih
  exact Nat.lt_irrefl _ (below id cycle)

theorem transGen_outside {relation outer : Id → Id → Prop} {inside : Id → Prop}
    (stays : ∀ child parent, relation child parent → ¬ inside child →
      ¬ inside parent ∧ outer child parent)
    {first last : Id} (path : Relation.TransGen relation first last) (outside : ¬ inside first) :
    ¬ inside last ∧ Relation.TransGen outer first last := by
  induction path with
  | single step =>
      rcases stays _ _ step outside with ⟨lastOutside, outerStep⟩
      exact ⟨lastOutside, Relation.TransGen.single outerStep⟩
  | tail _ step ih =>
      rcases ih with ⟨middleOutside, outerPath⟩
      rcases stays _ _ step middleOutside with ⟨lastOutside, outerStep⟩
      exact ⟨lastOutside, outerPath.tail outerStep⟩

theorem transGen_inside {relation inner : Id → Id → Prop} {inside : Id → Prop}
    (enters : ∀ child parent, relation child parent → inside parent →
      inside child ∧ inner child parent)
    {first last : Id} (path : Relation.TransGen relation first last) (lastInside : inside last) :
    inside first ∧ Relation.TransGen inner first last := by
  induction path using Relation.TransGen.head_induction_on with
  | single step =>
      rcases enters _ _ step lastInside with ⟨firstInside, innerStep⟩
      exact ⟨firstInside, Relation.TransGen.single innerStep⟩
  | head step _ ih =>
      rcases ih with ⟨middleInside, innerPath⟩
      rcases enters _ _ step middleInside with ⟨firstInside, innerStep⟩
      exact ⟨firstInside, innerPath.head innerStep⟩

theorem Acyclic.graft {relation outer inner : Id → Id → Prop} (inside : Id → Prop)
    (outerAcyclic : Acyclic outer) (innerAcyclic : Acyclic inner)
    (stays : ∀ child parent, relation child parent → ¬ inside child →
      ¬ inside parent ∧ outer child parent)
    (within : ∀ child parent, relation child parent → inside parent →
      inside child ∧ inner child parent) : Acyclic relation := by
  intro id cycle
  by_cases idInside : inside id
  · exact innerAcyclic id (transGen_inside within cycle idInside).2
  · exact outerAcyclic id (transGen_outside stays cycle idInside).2

/-- A path that never ends comes round in finitely many nodes. -/
theorem exists_cycle {relation : Id → Id → Prop} {nodes : Set Id} (finite : nodes.Finite)
    (start : Id) (continues : ∀ id, Relation.ReflTransGen relation start id →
      ∃ next ∈ nodes, relation id next) :
    ∃ id, Relation.ReflTransGen relation start id ∧ Relation.TransGen relation id id := by
  choose! next nextMem step using continues
  have reached : ∀ number, Relation.ReflTransGen relation start (next^[number] start) := by
    intro number
    induction number with
    | zero => exact .refl
    | succ number ih =>
        rw [Function.iterate_succ_apply']
        exact ih.tail (step _ ih)
  have := finite.to_subtype
  rcases Finite.exists_ne_map_eq_of_infinite fun number => (⟨next (next^[number] start),
    nextMem _ (reached number)⟩ : nodes) with ⟨first, second, different, same⟩
  have comesRound : ∀ {first second : ℕ}, first < second →
      next (next^[first] start) = next (next^[second] start) →
      Relation.TransGen relation (next^[first + 1] start) (next^[first + 1] start) := by
    intro first second before same
    have path := Nat.rel_of_forall_rel_succ_of_lt (Relation.TransGen relation)
      (f := fun number => next^[number] start) (fun number => by
        rw [Function.iterate_succ_apply']
        exact .single (step _ (reached number))) (Nat.succ_lt_succ before)
    rwa [Function.iterate_succ_apply' next second, ← same,
      ← Function.iterate_succ_apply' next first] at path
  rcases lt_or_gt_of_ne different with before | behind
  · exact ⟨_, reached _, comesRound before (congrArg Subtype.val same)⟩
  · exact ⟨_, reached _, comesRound behind (congrArg Subtype.val same).symm⟩

end Acyclic

end Brunomnia.Library
