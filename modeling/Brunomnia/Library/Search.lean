import Mathlib

/-!
# Breadth-first search

A queue of nodes with distances is worked off from the front; a node that is
found for the first time is recorded and its neighbours are put at the end. This
file proves that enough steps find exactly the reachable nodes, each with the
length of a shortest route, in the order of their first routes: shorter routes
come first, and routes of one length in the order of the neighbours they take.
-/

namespace Brunomnia.Library

universe u

variable {Id : Type u} [DecidableEq Id] (next : Id → List Id)

/-- Work off the queue until it is empty or the fuel is used up. -/
def search : ℕ → List (Id × ℕ) → List (Id × ℕ) → List (Id × ℕ)
  | 0, _, found => found
  | _ + 1, [], found => found
  | fuel + 1, (id, distance) :: queue, found =>
      if id ∈ found.map Prod.fst then search fuel queue found
      else
        search fuel (queue ++ (next id).map fun other => (other, distance + 1))
          (found ++ [(id, distance)])

/-! ## Routes -/

/-- A way from a node, by the place of each node among the neighbours of the one before. -/
inductive Route (start : Id) : Id → List ℕ → Prop where
  | refl : Route start start []
  | step {id other : Id} {route : List ℕ} {place : ℕ} (before : Route start id route)
      (isNext : (next id)[place]? = some other) : Route start other (route ++ [place])

/-- Routes are ordered by their lengths, and by their places where these are the same. -/
def routeKey (route : List ℕ) : ℕ ×ₗ List ℕ := toLex (route.length, route)

def FirstRoute (start id : Id) (route : List ℕ) : Prop :=
  Route next start id route ∧ ∀ other, Route next start id other → routeKey route ≤ routeKey other

theorem routeKey_injective : Function.Injective routeKey := by
  intro left right same
  exact congrArg Prod.snd (toLex.injective same)

theorem routeKey_lt_iff {left right : List ℕ} : routeKey left < routeKey right ↔
    left.length < right.length ∨ left.length = right.length ∧ left < right :=
  Prod.Lex.toLex_lt_toLex

theorem routeKey_lt_append (route : List ℕ) (place : ℕ) :
    routeKey route < routeKey (route ++ [place]) :=
  routeKey_lt_iff.mpr (Or.inl (by simp))

theorem append_lt_append {left right : List ℕ} (sameLength : left.length = right.length)
    (less : left < right) (leftRest rightRest : List ℕ) :
    left ++ leftRest < right ++ rightRest := by
  induction left generalizing right with
  | nil =>
      rw [List.length_nil] at sameLength
      rw [List.eq_nil_of_length_eq_zero sameLength.symm] at less
      exact absurd less (lt_irrefl _)
  | cons first left ih =>
      cases right with
      | nil => simp at sameLength
      | cons second right =>
          rw [List.cons_append, List.cons_append, List.cons_lt_cons_iff] at *
          rcases less with less | ⟨same, less⟩
          · exact Or.inl less
          · exact Or.inr ⟨same, ih (by simpa using sameLength) less⟩

theorem routeKey_append_lt {left right : List ℕ} (less : routeKey left < routeKey right)
    (leftPlace rightPlace : ℕ) :
    routeKey (left ++ [leftPlace]) < routeKey (right ++ [rightPlace]) := by
  rw [routeKey_lt_iff] at *
  simp only [List.length_append, List.length_singleton, Nat.add_lt_add_iff_right,
    Nat.add_right_cancel_iff]
  exact less.imp_right fun both => ⟨both.1, append_lt_append both.1 both.2 _ _⟩

theorem routeKey_append_le {left right : List ℕ} (le : routeKey left ≤ routeKey right)
    (place : ℕ) : routeKey (left ++ [place]) ≤ routeKey (right ++ [place]) := by
  rcases le.lt_or_eq with less | same
  · exact (routeKey_append_lt less place place).le
  · rw [routeKey_injective same]

variable {next}

omit [DecidableEq Id] in
theorem FirstRoute.unique {start id : Id} {route other : List ℕ}
    (first : FirstRoute next start id route) (otherFirst : FirstRoute next start id other) :
    route = other :=
  routeKey_injective (le_antisymm (first.2 other otherFirst.1) (otherFirst.2 route first.1))

omit [DecidableEq Id] in
theorem FirstRoute.refl {start : Id} : FirstRoute next start start [] := by
  refine ⟨Route.refl, fun other _ => ?_⟩
  rcases other with _ | ⟨place, rest⟩
  · exact le_rfl
  · exact (routeKey_lt_iff.mpr (Or.inl (by simp))).le

omit [DecidableEq Id] in
theorem FirstRoute.length_pos {start id : Id} {route : List ℕ}
    (first : FirstRoute next start id route) (different : id ≠ start) : 0 < route.length := by
  cases first.1 with
  | refl => exact absurd rfl different
  | step => simp

omit [DecidableEq Id] in
theorem FirstRoute.length_le_one {start id : Id} {route : List ℕ}
    (first : FirstRoute next start id route) (isNext : id ∈ next start) : route.length ≤ 1 := by
  rcases List.getElem?_of_mem isNext with ⟨place, placeEq⟩
  rcases (first.2 _ (Route.refl.step placeEq)).lt_or_eq with less | same
  · rcases routeKey_lt_iff.mp less with shorter | ⟨sameLength, _⟩
    · exact shorter.le
    · exact sameLength.le
  · rw [routeKey_injective same, List.nil_append, List.length_singleton]

omit [DecidableEq Id] in
theorem reaches_iff_route {start id : Id} :
    Relation.ReflTransGen (fun id other => other ∈ next id) start id ↔
      ∃ route, Route next start id route := by
  constructor
  · intro reaches
    induction reaches with
    | refl => exact ⟨[], Route.refl⟩
    | tail _ nextMem ih =>
        rcases ih with ⟨route, isRoute⟩
        rcases List.getElem?_of_mem nextMem with ⟨place, isNext⟩
        exact ⟨route ++ [place], isRoute.step isNext⟩
  · rintro ⟨route, isRoute⟩
    induction isRoute with
    | refl => exact Relation.ReflTransGen.refl
    | step _ isNext ih => exact ih.tail (List.mem_of_getElem? isNext)

/-! ## The search with routes -/

variable (next) in
def searchRoutes : ℕ → List (Id × List ℕ) → List (Id × List ℕ) → List (Id × List ℕ)
  | 0, _, found => found
  | _ + 1, [], found => found
  | fuel + 1, (id, route) :: queue, found =>
      if id ∈ found.map Prod.fst then searchRoutes fuel queue found
      else
        searchRoutes fuel
          (queue ++ (next id).mapIdx fun place other => (other, route ++ [place]))
          (found ++ [(id, route)])

def withDistances (entries : List (Id × List ℕ)) : List (Id × ℕ) :=
  entries.map fun entry => (entry.1, entry.2.length)

omit [DecidableEq Id] in
theorem map_fst_withDistances (entries : List (Id × List ℕ)) :
    (withDistances entries).map Prod.fst = entries.map Prod.fst := by
  rw [withDistances, List.map_map]
  rfl

theorem search_withDistances (fuel : ℕ) (queue found : List (Id × List ℕ)) :
    search next fuel (withDistances queue) (withDistances found) =
      withDistances (searchRoutes next fuel queue found) := by
  induction fuel generalizing queue found with
  | zero => rfl
  | succ fuel ih =>
      match queue with
      | [] => rfl
      | (id, route) :: queue =>
          have extended : withDistances (queue ++
                (next id).mapIdx fun place other => (other, route ++ [place])) =
              withDistances queue ++ (next id).map fun other => (other, route.length + 1) := by
            rw [withDistances, List.map_append]
            congr 1
            apply List.ext_getElem?
            intro place
            simp [Function.comp_def]
          rw [withDistances, List.map_cons, search, searchRoutes]
          dsimp only
          rw [map_fst_withDistances]
          split
          · exact ih queue found
          · rw [← ih, extended]
            simp [withDistances]

/-- What holds of the queue and the nodes found between two steps of the search. -/
structure SearchInvariant (next : Id → List Id) (start : Id) (queue found : List (Id × List ℕ)) :
    Prop where
  nodup : (found.map Prod.fst).Nodup
  routes : ∀ entry ∈ found ++ queue, Route next start entry.1 entry.2
  start : ∃ entry ∈ found ++ queue, entry.1 = start ∧ entry.2 = []
  neighbours : ∀ entry ∈ found, ∀ place other, (next entry.1)[place]? = some other →
    ∃ later ∈ found ++ queue, later.1 = other ∧ routeKey later.2 ≤ routeKey (entry.2 ++ [place])
  sorted : (found ++ queue).Pairwise fun left right => routeKey left.2 < routeKey right.2
  near : ∀ left ∈ queue, ∀ right ∈ queue, ∀ place,
    routeKey right.2 < routeKey (left.2 ++ [place])

omit [DecidableEq Id] in
theorem SearchInvariant.initial (next : Id → List Id) (start : Id) :
    SearchInvariant next start [(start, [])] [] where
  nodup := by simp
  routes := by
    intro entry entryMem
    rw [List.nil_append, List.mem_singleton] at entryMem
    rw [entryMem]
    exact Route.refl
  start := ⟨(start, []), by simp⟩
  neighbours := by simp
  sorted := by simp
  near := by
    intro left leftMem right rightMem place
    rw [List.mem_singleton] at leftMem rightMem
    rw [leftMem, rightMem]
    exact routeKey_lt_append [] place

omit [DecidableEq Id] in
/-- A node that was found before is dropped from the queue. -/
theorem SearchInvariant.skip {start id : Id} {route : List ℕ} {queue found : List (Id × List ℕ)}
    (invariant : SearchInvariant next start ((id, route) :: queue) found)
    (known : id ∈ found.map Prod.fst) : SearchInvariant next start queue found := by
  have sorted := List.pairwise_append.mp invariant.sorted
  -- The dropped entry is replaced by the one found before, which has an earlier route.
  have replace : ∀ entry ∈ found ++ (id, route) :: queue,
      ∃ other ∈ found ++ queue, other.1 = entry.1 ∧ routeKey other.2 ≤ routeKey entry.2 := by
    intro entry entryMem
    rcases List.mem_append.mp entryMem with foundMem | queueMem
    · exact ⟨entry, List.mem_append_left _ foundMem, rfl, le_rfl⟩
    · rcases List.mem_cons.mp queueMem with rfl | queueMem
      · rcases List.mem_map.mp known with ⟨other, otherMem, idEq⟩
        exact ⟨other, List.mem_append_left _ otherMem, idEq,
          (sorted.2.2 other otherMem _ List.mem_cons_self).le⟩
      · exact ⟨entry, List.mem_append_right _ queueMem, rfl, le_rfl⟩
  have kept : (found ++ queue).Sublist (found ++ (id, route) :: queue) :=
    (List.sublist_cons_self _ _).append_left _
  refine ⟨invariant.nodup, fun entry entryMem => invariant.routes entry (kept.subset entryMem), ?_,
    ?_, invariant.sorted.sublist kept, ?_⟩
  · rcases invariant.start with ⟨entry, entryMem, idEq, isNil⟩
    rcases replace entry entryMem with ⟨other, otherMem, sameId, le⟩
    refine ⟨other, otherMem, sameId.trans idEq, ?_⟩
    rw [isNil] at le
    by_contra notNil
    have longer : routeKey [] < routeKey other.2 :=
      routeKey_lt_iff.mpr (Or.inl (List.length_pos_of_ne_nil notNil))
    exact absurd longer le.not_gt
  · intro entry entryMem place other isNext
    rcases invariant.neighbours entry entryMem place other isNext with ⟨later, laterMem, idEq, le⟩
    rcases replace later laterMem with ⟨better, betterMem, sameId, better_le⟩
    exact ⟨better, betterMem, sameId.trans idEq, better_le.trans le⟩
  · intro left leftMem right rightMem
    exact invariant.near left (List.mem_cons_of_mem _ leftMem) right
      (List.mem_cons_of_mem _ rightMem)

omit [DecidableEq Id] in
theorem mem_extensions {id : Id} {route : List ℕ} {entry : Id × List ℕ} :
    entry ∈ (next id).mapIdx (fun place other => (other, route ++ [place])) ↔
      ∃ place, (next id)[place]? = some entry.1 ∧ entry.2 = route ++ [place] := by
  rw [List.mem_iff_getElem?]
  apply exists_congr
  intro place
  rw [List.getElem?_mapIdx, Option.map_eq_some_iff]
  constructor
  · rintro ⟨other, isNext, rfl⟩
    exact ⟨isNext, rfl⟩
  · rintro ⟨isNext, routeEq⟩
    exact ⟨entry.1, isNext, by rw [← routeEq]⟩

omit [DecidableEq Id] in
/-- A new node is recorded and its neighbours are queued behind the others. -/
theorem SearchInvariant.record {start id : Id} {route : List ℕ} {queue found : List (Id × List ℕ)}
    (invariant : SearchInvariant next start ((id, route) :: queue) found)
    (fresh : id ∉ found.map Prod.fst) :
    SearchInvariant next start
      (queue ++ (next id).mapIdx fun place other => (other, route ++ [place]))
      (found ++ [(id, route)]) := by
  have regroup : found ++ [(id, route)] ++
        (queue ++ (next id).mapIdx fun place other => (other, route ++ [place])) =
      (found ++ (id, route) :: queue) ++
        (next id).mapIdx fun place other => (other, route ++ [place]) := by
    simp
  have sorted := List.pairwise_append.mp invariant.sorted
  have sortedQueue := List.pairwise_cons.mp sorted.2.1
  have isHead : (id, route) ∈ (id, route) :: queue := List.mem_cons_self
  have inQueue : ∀ entry ∈ queue, entry ∈ (id, route) :: queue :=
    fun _ entryMem => List.mem_cons_of_mem _ entryMem
  -- What was there comes before every extension of the route.
  have before : ∀ entry ∈ found ++ (id, route) :: queue, ∀ place,
      routeKey entry.2 < routeKey (route ++ [place]) := by
    intro entry entryMem place
    rcases List.mem_append.mp entryMem with foundMem | queueMem
    · exact (sorted.2.2 entry foundMem _ isHead).trans (routeKey_lt_append route place)
    · exact invariant.near (id, route) isHead entry queueMem place
  constructor
  · rw [List.map_append, List.nodup_append]
    refine ⟨invariant.nodup, by simp, ?_⟩
    rintro other otherMem _ newMem rfl
    have same : other = id := by simpa using newMem
    exact fresh (same ▸ otherMem)
  · intro entry entryMem
    rw [regroup] at entryMem
    rcases List.mem_append.mp entryMem with oldMem | newMem
    · exact invariant.routes entry oldMem
    · rcases mem_extensions.mp newMem with ⟨place, isNext, routeEq⟩
      rw [routeEq]
      exact (invariant.routes (id, route) (List.mem_append_right _ isHead)).step isNext
  · rw [regroup]
    rcases invariant.start with ⟨entry, entryMem, isStart⟩
    exact ⟨entry, List.mem_append_left _ entryMem, isStart⟩
  · rw [regroup]
    intro entry entryMem place other isNext
    rcases List.mem_append.mp entryMem with foundMem | newMem
    · rcases invariant.neighbours entry foundMem place other isNext with ⟨later, laterMem, le⟩
      exact ⟨later, List.mem_append_left _ laterMem, le⟩
    · rw [List.mem_singleton.mp newMem] at isNext ⊢
      exact ⟨(other, route ++ [place]),
        List.mem_append_right _ (mem_extensions.mpr ⟨place, isNext, rfl⟩), rfl, le_rfl⟩
  · rw [regroup, List.pairwise_append]
    refine ⟨invariant.sorted, ?_, ?_⟩
    · rw [List.pairwise_iff_getElem]
      intro first second firstIn secondIn less
      rw [List.getElem_mapIdx, List.getElem_mapIdx, routeKey_lt_iff]
      refine Or.inr ⟨by simp, ?_⟩
      exact List.append_left_lt (List.cons_lt_cons_iff.mpr (Or.inl less))
    · intro left leftMem right rightMem
      rcases mem_extensions.mp rightMem with ⟨place, _, routeEq⟩
      rw [routeEq]
      exact before left leftMem place
  · intro left leftMem right rightMem place
    have leftLate : routeKey route < routeKey left.2 := by
      rcases List.mem_append.mp leftMem with queueMem | newMem
      · exact sortedQueue.1 left queueMem
      · rcases mem_extensions.mp newMem with ⟨leftPlace, _, routeEq⟩
        rw [routeEq]
        exact routeKey_lt_append route leftPlace
    rcases List.mem_append.mp rightMem with queueMem | newMem
    · exact (before right (List.mem_append_right _ (inQueue right queueMem)) place).trans
        (routeKey_append_lt leftLate place place)
    · rcases mem_extensions.mp newMem with ⟨rightPlace, _, routeEq⟩
      rw [routeEq]
      exact routeKey_append_lt leftLate rightPlace place

omit [DecidableEq Id] in
theorem SearchInvariant.complete {start : Id} {found : List (Id × List ℕ)}
    (invariant : SearchInvariant next start [] found) {id : Id} {route : List ℕ}
    (isRoute : Route next start id route) :
    ∃ entry ∈ found, entry.1 = id ∧ routeKey entry.2 ≤ routeKey route := by
  induction isRoute with
  | refl =>
      rcases invariant.start with ⟨entry, entryMem, idEq, isNil⟩
      rw [List.append_nil] at entryMem
      exact ⟨entry, entryMem, idEq, by rw [isNil]⟩
  | @step _ _ _ place _ isNext ih =>
      rcases ih with ⟨entry, entryMem, rfl, le⟩
      rcases invariant.neighbours entry entryMem _ _ isNext with ⟨later, laterMem, idEq, near⟩
      rw [List.append_nil] at laterMem
      exact ⟨later, laterMem, idEq, near.trans (routeKey_append_le le place)⟩

/-! ## Enough steps -/

/-- The steps that are left: the queue and the neighbours of nodes not found yet. -/
def remaining (next : Id → List Id) (nodes : List Id) (queue found : List (Id × List ℕ)) : ℕ :=
  queue.length + ((nodes.filter fun id => decide (id ∉ found.map Prod.fst)).map fun id =>
    (next id).length).sum

theorem remaining_record {nodes : List Id} (nodesNodup : nodes.Nodup)
    (expandable : ∀ id, next id ≠ [] → id ∈ nodes) {id : Id} (route : List ℕ)
    (queue : List (Id × List ℕ)) {found : List (Id × List ℕ)} (fresh : id ∉ found.map Prod.fst) :
    remaining next nodes
        (queue ++ (next id).mapIdx fun place other => (other, route ++ [place]))
        (found ++ [(id, route)]) + 1 =
      remaining next nodes ((id, route) :: queue) found := by
  unfold remaining
  rw [List.length_append, List.length_mapIdx, List.length_cons]
  suffices sums : (next id).length + ((nodes.filter fun other =>
      decide (other ∉ (found ++ [(id, route)]).map Prod.fst)).map fun other =>
        (next other).length).sum =
      ((nodes.filter fun other => decide (other ∉ found.map Prod.fst)).map fun other =>
        (next other).length).sum by omega
  by_cases isNode : id ∈ nodes
  · have idMem : id ∈ nodes.filter fun other => decide (other ∉ found.map Prod.fst) :=
      List.mem_filter.mpr ⟨isNode, by simpa using fresh⟩
    have perm := List.perm_cons_erase idMem
    have erased : (nodes.filter fun other => decide (other ∉ found.map Prod.fst)).erase id =
        nodes.filter fun other =>
          decide (other ∉ (found ++ [(id, route)]).map Prod.fst) := by
      rw [(nodesNodup.filter _).erase_eq_filter, List.filter_filter]
      apply List.filter_congr
      intro other _
      simp only [List.map_append, List.mem_append, not_or, List.map_cons, List.map_nil,
        List.mem_singleton, Bool.decide_and, bne, Bool.and_comm]
      congr 1
      by_cases same : other = id <;> simp [same]
    have sums := (perm.map fun other => (next other).length).sum_eq
    rw [erased, List.map_cons, List.sum_cons] at sums
    exact sums.symm
  · have noNext : next id = [] := by
      by_contra hasNext
      exact isNode (expandable id hasNext)
    rw [noNext, List.length_nil, Nat.zero_add]
    congr 2
    apply List.filter_congr
    intro other otherMem
    have otherNe : other ≠ id := fun eq => isNode (eq ▸ otherMem)
    simp [otherNe]

/-- Every step uses up one unit of what is left, so enough fuel empties the queue. -/
theorem search_invariant {nodes : List Id} (nodesNodup : nodes.Nodup)
    (expandable : ∀ id, next id ≠ [] → id ∈ nodes) {start : Id} {fuel : ℕ}
    {queue found : List (Id × List ℕ)} (invariant : SearchInvariant next start queue found)
    (enough : remaining next nodes queue found ≤ fuel) :
    SearchInvariant next start [] (searchRoutes next fuel queue found) := by
  induction fuel generalizing queue found with
  | zero =>
      have empty : queue = [] := by
        apply List.eq_nil_of_length_eq_zero
        unfold remaining at enough
        omega
      subst queue
      exact invariant
  | succ fuel ih =>
      match queue with
      | [] => exact invariant
      | (id, route) :: queue =>
          unfold searchRoutes
          split
          · next known =>
              refine ih (invariant.skip known) ?_
              unfold remaining at enough ⊢
              rw [List.length_cons] at enough
              omega
          · next fresh =>
              have less := remaining_record nodesNodup expandable route queue fresh
              exact ih (invariant.record fresh) (by omega)

/-- A search from one node finds the reachable nodes, once each, by their first routes and in
the order of these. -/
structure Searched (next : Id → List Id) (start : Id) (found : List (Id × List ℕ)) : Prop where
  nodup : (found.map Prod.fst).Nodup
  first : ∀ entry ∈ found, FirstRoute next start entry.1 entry.2
  complete : ∀ id route, Route next start id route → id ∈ found.map Prod.fst
  sorted : found.Pairwise fun left right => routeKey left.2 < routeKey right.2

theorem search_searched {nodes : List Id} (nodesNodup : nodes.Nodup)
    (expandable : ∀ id, next id ≠ [] → id ∈ nodes) (start : Id) {fuel : ℕ}
    (enough : 1 + (nodes.map fun id => (next id).length).sum ≤ fuel) :
    ∃ found, Searched next start found ∧
      search next fuel [(start, 0)] [] = withDistances found := by
  have invariant := search_invariant nodesNodup expandable
    (SearchInvariant.initial next start) (show _ ≤ fuel by
      simpa [remaining] using enough)
  refine ⟨_, ⟨invariant.nodup, ?_, ?_, ?_⟩, search_withDistances fuel [(start, [])] []⟩
  · intro entry entryMem
    refine ⟨invariant.routes entry (List.mem_append_left _ entryMem), fun route isRoute => ?_⟩
    rcases invariant.complete isRoute with ⟨other, otherMem, idEq, le⟩
    rwa [List.inj_on_of_nodup_map invariant.nodup otherMem entryMem idEq] at le
  · intro id route isRoute
    rcases invariant.complete isRoute with ⟨entry, entryMem, rfl, _⟩
    exact List.mem_map_of_mem entryMem
  · simpa using invariant.sorted

omit [DecidableEq Id] in
theorem Searched.mem_iff {start : Id} {found : List (Id × List ℕ)}
    (searched : Searched next start found) {id : Id} : id ∈ found.map Prod.fst ↔
      Relation.ReflTransGen (fun id other => other ∈ next id) start id := by
  rw [reaches_iff_route]
  constructor
  · intro idMem
    rcases List.mem_map.mp idMem with ⟨entry, entryMem, rfl⟩
    exact ⟨entry.2, (searched.first entry entryMem).1⟩
  · rintro ⟨route, isRoute⟩
    exact searched.complete id route isRoute

end Brunomnia.Library
