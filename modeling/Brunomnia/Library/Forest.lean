import Brunomnia.Library.Closure

/-!
# Forests given by upward links

A forest is a list of nodes, each given by its identity and its optional
parent. This file states what makes such a list a forest and proves that the
four ways of rebuilding one keep it a forest: reordering it, pruning a closed
part, moving one node below another part, and grafting a part of one forest
into another one.
-/

namespace Brunomnia.Library

universe u

variable {Id : Type u} [DecidableEq Id]

/-- The link relation of a list of identities with their optional parents. -/
abbrev UpwardLink (links : List (Id × Option Id)) : Id → Id → Prop :=
  Linked Prod.fst Prod.snd links

/-- Identities are unique, every parent is a node, and links run in no cycle. -/
structure Forest (links : List (Id × Option Id)) : Prop where
  nodup : (links.map Prod.fst).Nodup
  parents : ∀ link ∈ links, ∀ parent, link.2 = some parent → parent ∈ links.map Prod.fst
  acyclic : Acyclic (UpwardLink links)

/-- Give the node with one identity a new parent. -/
def reparent (root : Id) (parent : Option Id) (link : Id × Option Id) : Id × Option Id :=
  if link.1 = root then (link.1, parent) else link

@[simp]
theorem reparent_fst (root : Id) (parent : Option Id) (link : Id × Option Id) :
    (reparent root parent link).1 = link.1 := by
  unfold reparent
  split <;> rfl

omit [DecidableEq Id] in
theorem Forest.of_rank {links : List (Id × Option Id)} (rank : Id → ℕ)
    (nodup : (links.map Prod.fst).Nodup)
    (linked : ∀ link ∈ links, ∀ parent ∈ link.2,
      parent ∈ links.map Prod.fst ∧ rank parent < rank link.1) : Forest links where
  nodup := nodup
  parents := fun link linkMem parent linkEq => (linked link linkMem parent linkEq).1
  acyclic := by
    apply Acyclic.of_rank rank
    rintro child parent ⟨link, linkMem, rfl, linkEq⟩
    exact (linked link linkMem parent linkEq).2

omit [DecidableEq Id] in
theorem Forest.perm {links reordered : List (Id × Option Id)} (forest : Forest links)
    (perm : reordered.Perm links) : Forest reordered where
  nodup := (perm.map Prod.fst).nodup_iff.mpr forest.nodup
  parents := by
    intro link linkMem parent linked
    exact (perm.map Prod.fst).mem_iff.mpr
      (forest.parents link (perm.mem_iff.mp linkMem) parent linked)
  acyclic := by
    apply forest.acyclic.mono
    rintro child parent ⟨link, linkMem, idEq, linked⟩
    exact ⟨link, perm.mem_iff.mp linkMem, idEq, linked⟩

theorem Forest.prune {links : List (Id × Option Id)} (forest : Forest links) {part : List Id}
    (closed : Closed Prod.fst Prod.snd links part) :
    Forest (links.filter fun link => decide (link.1 ∉ part)) where
  nodup := forest.nodup.sublist (List.filter_sublist.map _)
  parents := by
    intro link linkMem parent linked
    rcases List.mem_filter.mp linkMem with ⟨linkMem, outside⟩
    rcases List.mem_map.mp (forest.parents link linkMem parent linked) with
      ⟨above, aboveMem, rfl⟩
    apply List.mem_map_of_mem
    refine List.mem_filter.mpr ⟨aboveMem, ?_⟩
    have parentOutside : above.1 ∉ part := by
      intro inside
      have := closed link linkMem above.1 linked inside
      simp [this] at outside
    simpa using parentOutside
  acyclic := by
    apply forest.acyclic.mono
    rintro child parent ⟨link, linkMem, idEq, linked⟩
    exact ⟨link, List.mem_of_mem_filter linkMem, idEq, linked⟩

/-- Moving a node to a parent outside of the part below it keeps a forest. -/
theorem Forest.move {links : List (Id × Option Id)} (forest : Forest links) {part : List Id}
    (closed : Closed Prod.fst Prod.snd links part) {root : Id} (rootMem : root ∈ part)
    {target : Option Id}
    (targetOk : ∀ parent, target = some parent → parent ∈ links.map Prod.fst ∧ parent ∉ part) :
    Forest (links.map (reparent root target)) where
  nodup := by
    have : (links.map (reparent root target)).map Prod.fst = links.map Prod.fst := by
      simp [Function.comp_def]
    rw [this]
    exact forest.nodup
  parents := by
    intro link linkMem parent linked
    have idsEq : (links.map (reparent root target)).map Prod.fst = links.map Prod.fst := by
      simp [Function.comp_def]
    rw [idsEq]
    rcases List.mem_map.mp linkMem with ⟨original, originalMem, rfl⟩
    unfold reparent at linked
    split at linked
    · exact (targetOk parent linked).1
    · exact forest.parents original originalMem parent linked
  acyclic := by
    -- Old links below the part never leave the closed part upwards again, so a
    -- cycle would have to avoid the moved node or run through its new parent.
    have original : ∀ child parent, UpwardLink (links.map (reparent root target)) child parent →
        child ≠ root → UpwardLink links child parent := by
      rintro child parent ⟨link, linkMem, idEq, linked⟩ notRoot
      rcases List.mem_map.mp linkMem with ⟨link, originalMem, rfl⟩
      rw [reparent_fst] at idEq
      have unmoved : reparent root target link = link := by
        unfold reparent
        simp [idEq, notRoot]
      rw [unmoved] at linked
      exact ⟨link, originalMem, idEq, linked⟩
    apply Acyclic.graft (· ∈ part) forest.acyclic forest.acyclic
    · intro child parent linked outside
      have childNe : child ≠ root := fun eq => outside (eq ▸ rootMem)
      have old := original child parent linked childNe
      refine ⟨?_, old⟩
      rintro inside
      rcases old with ⟨link, linkMem, rfl, linkEq⟩
      exact outside (closed link linkMem parent linkEq inside)
    · intro child parent linked inside
      by_cases childEq : child = root
      · rcases linked with ⟨link, linkMem, idEq, linkEq⟩
        rcases List.mem_map.mp linkMem with ⟨link, originalMem, rfl⟩
        rw [reparent_fst] at idEq
        have moved : (reparent root target link).2 = target := by
          unfold reparent
          simp [idEq, childEq]
        rw [moved] at linkEq
        exact absurd inside (targetOk parent linkEq).2
      · have old := original child parent linked childEq
        refine ⟨?_, old⟩
        rcases old with ⟨link, linkMem, rfl, linkEq⟩
        exact closed link linkMem parent linkEq inside

/-- Grafting a rooted part of one forest below a node of another one, with
disjoint identities, gives a forest. -/
theorem Forest.graft {links source : List (Id × Option Id)} (forest : Forest links)
    (sourceForest : Forest source) {part : List Id} {root : Id}
    (rooted : ∀ link ∈ source, link.1 ∈ part → link.1 ≠ root → ∀ parent,
      link.2 = some parent → parent ∈ part)
    (disjoint : ∀ link ∈ source, link.1 ∈ part → link.1 ∉ links.map Prod.fst)
    {target : Option Id} (targetOk : ∀ parent, target = some parent →
      parent ∈ links.map Prod.fst) :
    Forest (links ++ (source.filter fun link => decide (link.1 ∈ part)).map
      (reparent root target)) := by
  set moved := (source.filter fun link => decide (link.1 ∈ part)).map (reparent root target)
    with movedEq
  have movedIds : moved.map Prod.fst =
      (source.filter fun link => decide (link.1 ∈ part)).map Prod.fst := by
    simp [movedEq, Function.comp_def]
  have mem_moved : ∀ link ∈ moved, ∃ original ∈ source, original.1 ∈ part ∧
      link = reparent root target original := by
    intro link linkMem
    rcases List.mem_map.mp linkMem with ⟨original, originalMem, rfl⟩
    rcases List.mem_filter.mp originalMem with ⟨sourceMem, inside⟩
    exact ⟨original, sourceMem, by simpa using inside, rfl⟩
  refine ⟨?_, ?_, ?_⟩
  · rw [List.map_append, List.nodup_append, movedIds]
    refine ⟨forest.nodup, sourceForest.nodup.sublist (List.filter_sublist.map _), ?_⟩
    rintro id idMem other otherMem rfl
    rcases List.mem_map.mp otherMem with ⟨link, linkMem, rfl⟩
    rcases List.mem_filter.mp linkMem with ⟨sourceMem, inside⟩
    exact disjoint link sourceMem (by simpa using inside) idMem
  · intro link linkMem parent linked
    rw [List.map_append, List.mem_append]
    rcases List.mem_append.mp linkMem with oldMem | newMem
    · exact Or.inl (forest.parents link oldMem parent linked)
    · rcases mem_moved link newMem with ⟨original, sourceMem, inside, rfl⟩
      by_cases rootEq : original.1 = root
      · have : (reparent root target original).2 = target := by simp [reparent, rootEq]
        rw [this] at linked
        exact Or.inl (targetOk parent linked)
      · right
        have : reparent root target original = original := by simp [reparent, rootEq]
        rw [this] at linked
        have parentInside := rooted original sourceMem inside rootEq parent linked
        rw [movedIds]
        rcases List.mem_map.mp (sourceForest.parents original sourceMem parent linked) with
          ⟨above, aboveMem, rfl⟩
        exact List.mem_map_of_mem (List.mem_filter.mpr ⟨aboveMem, by simpa using parentInside⟩)
  · apply Acyclic.graft (· ∉ links.map Prod.fst) forest.acyclic sourceForest.acyclic
    · rintro child parent ⟨link, linkMem, rfl, linked⟩ outside
      rw [not_not] at outside
      rcases List.mem_append.mp linkMem with oldMem | newMem
      · exact ⟨not_not.mpr (forest.parents link oldMem parent linked),
          ⟨link, oldMem, rfl, linked⟩⟩
      · rcases mem_moved link newMem with ⟨original, sourceMem, inside, rfl⟩
        rw [reparent_fst] at outside
        exact absurd outside (disjoint original sourceMem inside)
    · rintro child parent ⟨link, linkMem, rfl, linked⟩ inside
      rcases List.mem_append.mp linkMem with oldMem | newMem
      · exact absurd (forest.parents link oldMem parent linked) inside
      · rcases mem_moved link newMem with ⟨original, sourceMem, partMem, rfl⟩
        rw [reparent_fst]
        refine ⟨disjoint original sourceMem partMem, ?_⟩
        by_cases rootEq : original.1 = root
        · have : (reparent root target original).2 = target := by simp [reparent, rootEq]
          rw [this] at linked
          exact absurd (targetOk parent linked) inside
        · have : reparent root target original = original := by simp [reparent, rootEq]
          rw [this] at linked
          exact ⟨original, sourceMem, rfl, linked⟩

end Brunomnia.Library
