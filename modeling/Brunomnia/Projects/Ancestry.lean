import Brunomnia.Projects.Sharing

/-!
# Private ancestors

Whether an environment is private depends on its ancestors. The walk upward reads no rows, what
it calls private is private, and among at most five hundred environments with distinct ids it
misses no private ancestor.
-/

namespace Brunomnia.Projects

/-- One environment is the parent of another one. -/
def IsParent (environments : List Environment) (child parent : Environment) : Prop :=
  child.parent?.bind (environmentById environments) = some parent

/-- An environment is private, or an ancestor of it at any depth is. -/
def IsDevicePrivate (environments : List Environment) (environment : Environment) : Prop :=
  ∃ ancestor, Relation.ReflTransGen (IsParent environments) environment ancestor ∧
    ancestor.isPrivate = true

def Environment.withoutRows (environment : Environment) : Environment :=
  { environment with rows := [] }

/-! ## The walk reads no rows -/

theorem environmentById_map (environments : List Environment) (id : String) :
    environmentById (environments.map Environment.withoutRows) id =
      (environmentById environments id).map Environment.withoutRows := by
  unfold environmentById Resources.lastWithId
  rw [← List.map_reverse, List.find?_map]
  rfl

theorem isEffectivelyPrivate_withoutRows (environments : List Environment) (space : ℕ)
    (visited : List String) (current : Environment) :
    isEffectivelyPrivate (environments.map Environment.withoutRows) space visited
        current.withoutRows = isEffectivelyPrivate environments space visited current := by
  induction space generalizing visited current with
  | zero => rfl
  | succ space ih =>
      unfold isEffectivelyPrivate
      have parent : (current.withoutRows.parent?.bind
          (environmentById (environments.map Environment.withoutRows))) =
          (current.parent?.bind (environmentById environments)).map Environment.withoutRows := by
        change current.parent?.bind _ = _
        cases current.parent? with
        | none => rfl
        | some id => exact environmentById_map environments id
      rw [parent]
      cases current.parent?.bind (environmentById environments) with
      | none => rfl
      | some parent =>
          rw [Option.map_some]
          dsimp only
          rw [ih]
          rfl

theorem isPublic_congr {environments others : List Environment} {first second : Environment}
    (same : environments.map Environment.withoutRows = others.map Environment.withoutRows)
    (sameOne : first.withoutRows = second.withoutRows) :
    isPublic environments first = isPublic others second := by
  unfold isPublic
  rw [← isEffectivelyPrivate_withoutRows environments, same, sameOne,
    isEffectivelyPrivate_withoutRows]

/-! ## The walk finds the private ancestors -/

theorem isDevicePrivate_of_isEffectivelyPrivate {environments : List Environment} {space : ℕ}
    {visited : List String} {current : Environment}
    (found : isEffectivelyPrivate environments space visited current = true) :
    IsDevicePrivate environments current := by
  induction space generalizing visited current with
  | zero => cases found
  | succ space ih =>
      unfold isEffectivelyPrivate at found
      split at found
      case isTrue => cases found
      case isFalse =>
        split at found
        case isTrue isPrivate => exact ⟨current, .refl, isPrivate⟩
        case isFalse =>
          cases parentEq : current.parent?.bind (environmentById environments) with
          | none => simp [parentEq] at found
          | some parent =>
              simp only [parentEq] at found
              rcases ih found with ⟨ancestor, reaches, isPrivate⟩
              exact ⟨ancestor, .head parentEq reaches, isPrivate⟩

/-- The walk so far: public environments whose parents were visited or come next. -/
structure WalkedTo (environments seen : List Environment) (current : Environment) : Prop where
  listed : seen ⊆ environments
  nodup : (seen.map Environment.id).Nodup
  isPublic : ∀ environment ∈ seen, environment.isPrivate = false
  parents : ∀ environment ∈ seen, ∀ parent, IsParent environments environment parent →
    parent ∈ seen ∨ parent = current

theorem environmentById_mem {environments : List Environment} {id : String}
    {environment : Environment} (found : environmentById environments id = some environment) :
    environment ∈ environments := by
  unfold environmentById Resources.lastWithId at found
  exact List.mem_reverse.mp (List.mem_of_find?_eq_some found)

theorem IsParent.mem {environments : List Environment} {child parent : Environment}
    (isParent : IsParent environments child parent) : parent ∈ environments := by
  rcases Option.bind_eq_some_iff.mp isParent with ⟨id, _, found⟩
  exact environmentById_mem found

theorem not_isDevicePrivate_of_closed {environments seen : List Environment}
    (closed : ∀ environment ∈ seen, ∀ parent, IsParent environments environment parent →
      parent ∈ seen)
    (isPublic : ∀ environment ∈ seen, environment.isPrivate = false) {environment : Environment}
    (mem : environment ∈ seen) : ¬ IsDevicePrivate environments environment := by
  rintro ⟨ancestor, reaches, isPrivate⟩
  have ancestorMem : ancestor ∈ seen := by
    clear isPrivate
    induction reaches with
    | refl => exact mem
    | tail _ step ih => exact closed _ ih _ step
  rw [isPublic ancestor ancestorMem] at isPrivate
  cases isPrivate

theorem WalkedTo.not_isDevicePrivate {environments seen : List Environment}
    {current : Environment} (walked : WalkedTo environments seen current)
    (currentMem : current ∈ seen) : ¬ IsDevicePrivate environments current := by
  refine not_isDevicePrivate_of_closed ?_ walked.isPublic currentMem
  intro environment mem parent isParent
  rcases walked.parents environment mem parent isParent with parentMem | rfl
  · exact parentMem
  · exact currentMem

theorem WalkedTo.next {environments seen : List Environment} {current : Environment}
    (walked : WalkedTo environments seen current) (currentMem : current ∈ environments)
    (fresh : current.id ∉ seen.map Environment.id) (isPublic : current.isPrivate = false)
    {parent : Environment}
    (parentEq : current.parent?.bind (environmentById environments) = some parent) :
    WalkedTo environments (current :: seen) parent where
  listed := List.cons_subset.mpr ⟨currentMem, walked.listed⟩
  nodup := List.nodup_cons.mpr ⟨fresh, walked.nodup⟩
  isPublic := List.forall_mem_cons.mpr ⟨isPublic, walked.isPublic⟩
  parents := by
    intro environment mem other isParent
    rcases List.mem_cons.mp mem with rfl | mem
    · exact Or.inr (Option.some.inj (isParent.symm.trans parentEq))
    · rcases walked.parents environment mem other isParent with otherMem | rfl
      · exact Or.inl (List.mem_cons_of_mem _ otherMem)
      · exact Or.inl List.mem_cons_self

/-- The walk ends before its space does, since it visits no environment twice. -/
theorem not_isDevicePrivate_of_walk {environments : List Environment}
    (nodup : (environments.map Environment.id).Nodup) {space : ℕ} {seen : List Environment}
    {current : Environment} (walked : WalkedTo environments seen current)
    (currentMem : current ∈ environments) (enough : environments.length ≤ space + seen.length)
    (notFound : isEffectivelyPrivate environments space (seen.map Environment.id) current =
      false) : ¬ IsDevicePrivate environments current := by
  induction space generalizing seen current with
  | zero =>
      apply walked.not_isDevicePrivate
      have seenNodup : seen.Nodup := walked.nodup.of_map
      have perm := (List.subperm_of_subset seenNodup walked.listed).perm_of_length_le (by omega)
      exact perm.mem_iff.mpr currentMem
  | succ space ih =>
      unfold isEffectivelyPrivate at notFound
      split at notFound
      case isTrue visited =>
        apply walked.not_isDevicePrivate
        rcases List.mem_map.mp visited with ⟨other, otherMem, sameId⟩
        rw [← List.inj_on_of_nodup_map nodup (walked.listed otherMem) currentMem sameId]
        exact otherMem
      case isFalse fresh =>
        split at notFound
        case isTrue => cases notFound
        case isFalse notPrivate =>
          have isPublic : current.isPrivate = false := by simpa using notPrivate
          rintro ⟨ancestor, reaches, isPrivate⟩
          cases parentEq : current.parent?.bind (environmentById environments) with
          | none =>
              rcases reaches.cases_head with rfl | ⟨parent, isParent, _⟩
              · simp [isPublic] at isPrivate
              · cases isParent.symm.trans parentEq
          | some parent =>
              simp only [parentEq] at notFound
              have next := walked.next currentMem fresh isPublic parentEq
              have parentPublic := ih next (IsParent.mem parentEq)
                (by rw [List.length_cons]; omega) notFound
              rcases reaches.cases_head with rfl | ⟨other, isParent, rest⟩
              · simp [isPublic] at isPrivate
              · cases Option.some.inj (isParent.symm.trans parentEq)
                exact parentPublic ⟨ancestor, rest, isPrivate⟩

theorem isPublic_iff {environments : List Environment}
    (nodup : (environments.map Environment.id).Nodup) (few : environments.length ≤ 500)
    {environment : Environment} (mem : environment ∈ environments) :
    isPublic environments environment = true ↔ ¬ IsDevicePrivate environments environment := by
  unfold isPublic
  rw [Bool.not_eq_true']
  constructor
  · intro notFound
    have walked : WalkedTo environments [] environment := ⟨by simp, by simp, by simp, by simp⟩
    exact not_isDevicePrivate_of_walk nodup walked mem (by simpa using few) notFound
  · intro notPrivate
    by_contra found
    exact notPrivate (isDevicePrivate_of_isEffectivelyPrivate (by simpa using found))

end Brunomnia.Projects
