import Mathlib

/-!
# Rebuilding lists

Facts about the list edits that records go through: replacing entries by
position or by identity, and what such edits conserve.
-/

namespace Brunomnia.Library

universe u v w

variable {Item : Type u} {Part : Type v} {Id : Type w}

theorem map_eq_self_iff {items : List Item} {change : Item → Item} :
    items.map change = items ↔ ∀ item ∈ items, change item = item := by
  have identity := List.map_inj_left (l := items) (f := change) (g := id)
  rw [List.map_id] at identity
  exact identity

theorem perm_cons_eraseIdx {items : List Item} {index : ℕ} {item : Item}
    (at_index : items[index]? = some item) : items.Perm (item :: items.eraseIdx index) := by
  rcases List.getElem?_eq_some_iff.mp at_index with ⟨inRange, rfl⟩
  exact (List.getElem_cons_eraseIdx_perm inRange).symm

theorem set_perm_cons_eraseIdx (items : List Item) {index : ℕ} (changed : Item)
    (inRange : index < items.length) :
    (items.set index changed).Perm (changed :: items.eraseIdx index) := by
  have changedAt : (items.set index changed)[index]? = some changed := by simp [inRange]
  simpa [List.eraseIdx_set_eq] using perm_cons_eraseIdx changedAt

theorem nodup_set_iff {items : List Item} (nodup : items.Nodup) {index : ℕ} {item changed : Item}
    (at_index : items[index]? = some item) :
    (items.set index changed).Nodup ↔ changed ∉ items ∨ item = changed := by
  rcases List.getElem?_eq_some_iff.mp at_index with ⟨inRange, _⟩
  have perm := perm_cons_eraseIdx at_index
  rw [(set_perm_cons_eraseIdx items changed inRange).nodup_iff, perm.mem_iff]
  rw [perm.nodup_iff] at nodup
  rw [List.nodup_cons, List.mem_cons, not_or]
  rw [List.nodup_cons] at nodup
  by_cases same : item = changed
  · subst same
    simpa using nodup
  · simp [same, Ne.symm same, nodup.2]

theorem set_set_perm {items : List Item} {first second : ℕ} (firstInRange : first < items.length)
    (secondInRange : second < items.length) (different : first ≠ second) :
    ∃ rest, ∀ left right,
      ((items.set first left).set second right).Perm (left :: right :: rest) := by
  rcases Nat.lt_or_gt_of_ne different with lt | gt
  · refine ⟨(items.eraseIdx second).eraseIdx first, fun left right => ?_⟩
    have outer := set_perm_cons_eraseIdx (items.set first left) right
      (by simpa using secondInRange)
    rw [List.eraseIdx_set_gt lt] at outer
    have inner := set_perm_cons_eraseIdx (items.eraseIdx second) left
      (show first < _ by rw [List.length_eraseIdx_of_lt secondInRange]; omega)
    exact (outer.trans (inner.cons right)).trans (List.Perm.swap left right _)
  · refine ⟨(items.eraseIdx second).eraseIdx (first - 1), fun left right => ?_⟩
    have outer := set_perm_cons_eraseIdx (items.set first left) right
      (by simpa using secondInRange)
    rw [List.eraseIdx_set_lt gt] at outer
    have inner := set_perm_cons_eraseIdx (items.eraseIdx second) left
      (show first - 1 < _ by rw [List.length_eraseIdx_of_lt secondInRange]; omega)
    exact (outer.trans (inner.cons right)).trans (List.Perm.swap left right _)

theorem set_self_of_getElem? {items : List Item} {index : ℕ} {item : Item}
    (at_index : items[index]? = some item) : items.set index item = items := by
  rcases List.getElem?_eq_some_iff.mp at_index with ⟨inRange, rfl⟩
  exact List.set_getElem_self inRange

theorem flatMap_set_perm {items : List Item} {index : ℕ} {item : Item}
    (at_index : items[index]? = some item) (parts : Item → List Part) :
    ∃ rest, (items.flatMap parts).Perm (parts item ++ rest) ∧
      ∀ changed, ((items.set index changed).flatMap parts).Perm (parts changed ++ rest) := by
  rcases List.getElem?_eq_some_iff.mp at_index with ⟨inRange, _⟩
  refine ⟨(items.eraseIdx index).flatMap parts, ?_, fun changed => ?_⟩
  · exact (perm_cons_eraseIdx at_index).flatMap_right parts
  · exact (set_perm_cons_eraseIdx items changed inRange).flatMap_right parts

theorem flatMap_set_set_perm {items : List Item} {first second : ℕ} {left right : Item}
    (at_first : items[first]? = some left) (at_second : items[second]? = some right)
    (different : first ≠ second) (parts : Item → List Part) :
    ∃ rest, (items.flatMap parts).Perm (parts left ++ (parts right ++ rest)) ∧
      ∀ newLeft newRight, (((items.set first newLeft).set second newRight).flatMap parts).Perm
        (parts newLeft ++ (parts newRight ++ rest)) := by
  rcases List.getElem?_eq_some_iff.mp at_first with ⟨firstInRange, _⟩
  rcases List.getElem?_eq_some_iff.mp at_second with ⟨secondInRange, _⟩
  rcases set_set_perm firstInRange secondInRange different with ⟨rest, perm⟩
  refine ⟨rest.flatMap parts, ?_, fun newLeft newRight => ?_⟩
  · have unchanged := (perm left right).flatMap_right parts
    rwa [set_self_of_getElem? at_first, set_self_of_getElem? at_second] at unchanged
  · exact (perm newLeft newRight).flatMap_right parts

/-- With unique identities, replacing by identity replaces one entry. -/
theorem map_replace_perm [DecidableEq Id] (ident : Item → Id) {items : List Item} {item : Item}
    (nodup : (items.map ident).Nodup) (itemMem : item ∈ items) (change : Item → Item) :
    ∃ rest, items.Perm (item :: rest) ∧ (∀ other ∈ rest, ident other ≠ ident item) ∧
      (items.map fun candidate =>
        if ident candidate = ident item then change candidate else candidate).Perm
          (change item :: rest) := by
  induction items with
  | nil => simp at itemMem
  | cons head tail ih =>
      rw [List.map_cons, List.nodup_cons] at nodup
      rcases List.mem_cons.mp itemMem with rfl | tailMem
      · have tailNe : ∀ other ∈ tail, ident other ≠ ident item := by
          intro other otherMem idEq
          exact nodup.1 (idEq ▸ List.mem_map_of_mem otherMem)
        refine ⟨tail, List.Perm.refl _, tailNe, ?_⟩
        have tailSame : (tail.map fun candidate =>
            if ident candidate = ident item then change candidate else candidate) = tail := by
          conv_rhs => rw [← List.map_id tail]
          apply List.map_congr_left
          intro other otherMem
          simp [tailNe other otherMem]
        simp [tailSame]
      · rcases ih nodup.2 tailMem with ⟨rest, perm, restNe, replaced⟩
        have headNe : ident head ≠ ident item := by
          intro idEq
          exact nodup.1 (idEq ▸ List.mem_map_of_mem tailMem)
        refine ⟨head :: rest, ?_, ?_, ?_⟩
        · exact (perm.cons head).trans (List.Perm.swap item head rest)
        · intro other otherMem
          rcases List.mem_cons.mp otherMem with rfl | restMem
          · exact headNe
          · exact restNe other restMem
        · simp only [List.map_cons, headNe, if_false]
          exact (replaced.cons head).trans (List.Perm.swap (change item) head rest)

theorem filter_ne_perm [DecidableEq Id] (ident : Item → Id) {items : List Item} {item : Item}
    (nodup : (items.map ident).Nodup) (itemMem : item ∈ items) :
    items.Perm (item :: items.filter fun candidate => decide (ident candidate ≠ ident item)) := by
  induction items with
  | nil => simp at itemMem
  | cons head tail ih =>
      rw [List.map_cons, List.nodup_cons] at nodup
      rcases List.mem_cons.mp itemMem with rfl | tailMem
      · have tailNe : ∀ other ∈ tail, decide (ident other ≠ ident item) = true := by
          intro other otherMem
          apply decide_eq_true
          intro idEq
          exact nodup.1 (idEq ▸ List.mem_map_of_mem otherMem)
        rw [List.filter_cons_of_neg (by simp), List.filter_eq_self.mpr tailNe]
      · have headNe : ident head ≠ ident item := by
          intro idEq
          exact nodup.1 (idEq ▸ List.mem_map_of_mem tailMem)
        rw [List.filter_cons_of_pos (by simpa using headNe)]
        exact ((ih nodup.2 tailMem).cons head).trans (List.Perm.swap item head _)

theorem eq_of_countP_le_one {holds : Item → Bool} {items : List Item}
    (single : items.countP holds ≤ 1) {item other : Item} (itemMem : item ∈ items)
    (otherMem : other ∈ items) (itemHolds : holds item = true) (otherHolds : holds other = true) :
    item = other := by
  have inFilter : item ∈ items.filter holds := List.mem_filter.mpr ⟨itemMem, itemHolds⟩
  have otherInFilter : other ∈ items.filter holds := List.mem_filter.mpr ⟨otherMem, otherHolds⟩
  rw [List.countP_eq_length_filter] at single
  rcases List.mem_iff_getElem.mp inFilter with ⟨index, inRange, rfl⟩
  rcases List.mem_iff_getElem.mp otherInFilter with ⟨otherIndex, otherInRange, rfl⟩
  have sameIndex : index = otherIndex := by omega
  subst sameIndex
  rfl

theorem nodup_eraseDups [DecidableEq Item] (items : List Item) : items.eraseDups.Nodup := by
  induction lengthEq : items.length using Nat.strong_induction_on generalizing items with
  | _ length ih =>
      cases items with
      | nil => simp
      | cons head tail =>
          rw [List.eraseDups_cons, List.nodup_cons]
          have shorter : (tail.filter fun other => !other == head).length < length := by
            have filtered := List.length_filter_le (fun other => !other == head) tail
            rw [List.length_cons] at lengthEq
            omega
          exact ⟨by simp, ih _ shorter _ rfl⟩

/-! ## Lists that are related item by item -/

section Related

variable {Source Target : Type*} {related : Source → Target → Prop} {sources : List Source}
  {targets : List Target}

theorem exists_forall₂ (exists_related : ∀ source ∈ sources, ∃ target, related source target) :
    ∃ targets, List.Forall₂ related sources targets := by
  induction sources with
  | nil => exact ⟨[], .nil⟩
  | cons source sources ih =>
      rw [List.forall_mem_cons] at exists_related
      rcases exists_related.1 with ⟨target, head⟩
      rcases ih exists_related.2 with ⟨targets, tail⟩
      exact ⟨target :: targets, .cons head tail⟩

theorem exists_source (pairs : List.Forall₂ related sources targets) {target : Target}
    (targetMem : target ∈ targets) : ∃ source ∈ sources, related source target := by
  induction pairs with
  | nil => cases targetMem
  | cons head _ ih =>
      rcases List.mem_cons.mp targetMem with rfl | targetMem
      · exact ⟨_, List.mem_cons_self, head⟩
      · rcases ih targetMem with ⟨source, sourceMem, pair⟩
        exact ⟨source, List.mem_cons_of_mem _ sourceMem, pair⟩

theorem exists_target (pairs : List.Forall₂ related sources targets) {source : Source}
    (sourceMem : source ∈ sources) : ∃ target ∈ targets, related source target := by
  rcases exists_source pairs.flip sourceMem with ⟨target, targetMem, pair⟩
  exact ⟨target, targetMem, pair⟩

theorem map_eq_map_of_forall₂ {Read : Type*} {left : Source → Read} {right : Target → Read}
    (pairs : List.Forall₂ related sources targets)
    (same : ∀ source target, related source target → left source = right target) :
    sources.map left = targets.map right := by
  induction pairs with
  | nil => rfl
  | cons head _ ih => rw [List.map_cons, List.map_cons, same _ _ head, ih]

end Related

/-! ## Results of a fallible map -/

section FallibleMap

variable {Failure Source Target : Type*} {f : Source → Except Failure Target}

theorem mapM_eq_ok_iff {sources : List Source} {targets : List Target} :
    sources.mapM f = .ok targets ↔
      List.Forall₂ (fun source target => f source = .ok target) sources targets := by
  induction sources generalizing targets with
  | nil => simp [pure, Except.pure, eq_comm]
  | cons source sources ih =>
      rw [List.mapM_cons]
      cases headEq : f source with
      | error failure => simp [bind, Except.bind, List.forall₂_cons_left_iff, headEq]
      | ok target =>
          cases tailEq : sources.mapM f with
          | error failure =>
              have noTail : ∀ rest, ¬ List.Forall₂ (fun source target => f source = .ok target)
                  sources rest := by
                intro rest related
                rw [ih.mpr related] at tailEq
                cases tailEq
              simp [bind, Except.bind, List.forall₂_cons_left_iff, noTail]
          | ok rest =>
              have tail := ih.mp tailEq
              simp only [bind, Except.bind, pure, Except.pure, Except.ok.injEq,
                List.forall₂_cons_left_iff, headEq]
              constructor
              · rintro rfl
                exact ⟨target, rest, rfl, tail, rfl⟩
              · rintro ⟨other, others, rfl, related, rfl⟩
                rw [ih.mpr related, Except.ok.injEq] at tailEq
                rw [tailEq]

theorem mapM_of_forall {sources : List Source} {g : Source → Target}
    (succeeds : ∀ source ∈ sources, f source = .ok (g source)) :
    sources.mapM f = .ok (sources.map g) := by
  rw [mapM_eq_ok_iff, List.forall₂_map_right_iff, List.forall₂_same]
  exact succeeds

end FallibleMap

/-! ## Joining -/

theorem intercalate_cons (separator first : List Item) (rest : List (List Item)) :
    List.intercalate separator (first :: rest) =
      first ++ rest.flatMap fun text => separator ++ text := by
  induction rest generalizing first with
  | nil => simp [List.intercalate]
  | cons second rest ih =>
      have step : List.intercalate separator (first :: second :: rest) =
          first ++ (separator ++ List.intercalate separator (second :: rest)) := by
        simp [List.intercalate, List.intersperse]
      rw [step, ih, List.flatMap_cons, List.append_assoc]

theorem map_modify_of_eq (items : List Item) (index : ℕ) {change : Item → Item}
    {part : Item → Part} (same : ∀ item, part (change item) = part item) :
    (items.modify index change).map part = items.map part := by
  apply List.ext_getElem?
  intro position
  simp only [List.getElem?_map, List.getElem?_modify]
  cases items[position]? with
  | none => rfl
  | some item =>
      simp only [Option.map_some, Option.map_eq_map]
      split <;> simp [same]

/-! ### Runs that are decided at an item -/

/-- The item decides for a part. -/
def Decides (Due : Item → Part → Prop) (item : Item) : Prop := ∃ part, Due item part

/-- The part found is due at the first item that decides, and one is found if an item decides. -/
def FindsDue (Due : Item → Part → Prop) (find : Item → Option Part) (items : List Item) : Prop :=
  (items.findSome? find = none ↔ ∀ item ∈ items, ¬ Decides Due item) ∧
    ∀ part, items.findSome? find = some part → ∃ before item after,
      items = before ++ item :: after ∧ (∀ earlier ∈ before, ¬ Decides Due earlier) ∧ Due item part

theorem findsDue_singleton {Due : Item → Part → Prop} {find : Item → Option Part} {item : Item} :
    FindsDue Due find [item] ↔
      (find item = none ↔ ¬ Decides Due item) ∧ ∀ part, find item = some part → Due item part := by
  have single : [item].findSome? find = find item := by
    cases found : find item <;> simp [found]
  simp only [FindsDue, single, List.forall_mem_singleton]
  refine and_congr_right fun _ => forall_congr' fun part => imp_congr_right fun _ => ?_
  constructor
  · rintro ⟨before, first, after, split, _, due⟩
    rcases List.singleton_eq_append_iff.mp split with ⟨_, split⟩ | ⟨_, split⟩
    · exact (List.cons.inj split).1 ▸ due
    · cases split
  · exact fun due => ⟨[], item, [], rfl, by simp, due⟩

theorem FindsDue.cons {Due : Item → Part → Prop} {find : Item → Option Part} {item : Item}
    {items : List Item} (here : FindsDue Due find [item])
    (later : ¬ Decides Due item → FindsDue Due find items) : FindsDue Due find (item :: items) := by
  rw [findsDue_singleton] at here
  rcases here with ⟨undecided, due⟩
  cases found : find item with
  | some part =>
      have decides : Decides Due item := ⟨part, due part found⟩
      have whole : (item :: items).findSome? find = some part := by
        rw [List.findSome?_cons, found]
      refine ⟨iff_of_false (by simp [whole]) fun none => none item List.mem_cons_self decides, ?_⟩
      rintro other isOther
      rw [whole, Option.some.injEq] at isOther
      exact ⟨[], item, items, rfl, by simp, isOther ▸ due part found⟩
  | none =>
      have isUndecided := undecided.mp found
      have whole : (item :: items).findSome? find = items.findSome? find := by
        rw [List.findSome?_cons, found]
      rcases later isUndecided with ⟨undecidedLater, dueLater⟩
      refine ⟨?_, ?_⟩
      · rw [whole, undecidedLater, List.forall_mem_cons]
        exact (and_iff_right isUndecided).symm
      · intro part isPart
        rcases dueLater part (whole ▸ isPart) with ⟨before, first, after, rfl, earlier, isDue⟩
        exact ⟨item :: before, first, after, rfl,
          List.forall_mem_cons.mpr ⟨isUndecided, earlier⟩, isDue⟩

/-- Every beginning of a list finds what is due exactly if every item that is reached undecided
does. -/
theorem findsDue_take_iff {Due : Item → Part → Prop} {find : Item → Option Part}
    {items : List Item} :
    (∀ n, FindsDue Due find (items.take n)) ↔
      ∀ before item after, items = before ++ item :: after →
        (∀ earlier ∈ before, ¬ Decides Due earlier) → FindsDue Due find [item] := by
  constructor
  · rintro finds before item after rfl undecided
    have nothing : before.findSome? find = none := by
      have beforeFinds := finds before.length
      rw [List.take_left] at beforeFinds
      exact beforeFinds.1.mpr undecided
    have itemFinds := finds (before.length + 1)
    rw [List.take_length_add_append, List.take_succ_cons, List.take_zero, FindsDue,
      List.findSome?_append, nothing, Option.none_or] at itemFinds
    rcases itemFinds with ⟨none, due⟩
    refine ⟨none.trans ?_, ?_⟩
    · rw [List.forall_mem_append, and_iff_right undecided]
    · intro part found
      rcases due part found with ⟨front, first, rest, split, _, isDue⟩
      have decides : Decides Due first := ⟨part, isDue⟩
      have isMem : first ∈ before ++ [item] := split ▸ by simp
      rcases List.mem_append.mp isMem with inBefore | isItem
      · exact absurd decides (undecided first inBefore)
      · exact ⟨[], item, [], rfl, by simp, List.mem_singleton.mp isItem ▸ isDue⟩
  · intro finds n
    induction items generalizing n with
    | nil => simp [FindsDue]
    | cons item items ih =>
        cases n with
        | zero => simp [FindsDue]
        | succ n =>
            rw [List.take_succ_cons]
            refine FindsDue.cons (finds [] item items rfl (by simp)) fun undecided => ih ?_ n
            rintro before later after rfl earlier
            exact finds (item :: before) later after rfl
              (List.forall_mem_cons.mpr ⟨undecided, earlier⟩)

end Brunomnia.Library

/-!
## Upserts

An entry takes the place of the first one with its identity, or the place behind the last one.
With unique identities it is then next to the entries with other identities, and what is unique
of those stays unique if the new one brings nothing that is there.
-/

namespace Brunomnia.Library

universe u v

variable {Item : Type u} {Id : Type v} [DecidableEq Id]

def upsertBy (ident : Item → Id) (items : List Item) (item : Item) : List Item :=
  match items.findIdx? fun candidate => decide (ident candidate = ident item) with
  | some index => items.set index item
  | none => items ++ [item]

variable {ident : Item → Id} {items : List Item} {item : Item}

theorem upsertBy_perm (nodup : (items.map ident).Nodup) :
    (upsertBy ident items item).Perm
      (item :: items.filter fun candidate => decide (ident candidate ≠ ident item)) := by
  unfold upsertBy
  cases found : items.findIdx? fun candidate => decide (ident candidate = ident item) with
  | none =>
      have others : ∀ candidate ∈ items, decide (ident candidate ≠ ident item) = true := by
        intro candidate mem
        simpa using List.findIdx?_eq_none_iff.mp found candidate mem
      rw [List.filter_eq_self.mpr others]
      exact List.perm_append_singleton item items
  | some index =>
      rcases List.findIdx?_eq_some_iff_getElem.mp found with ⟨inRange, sameId, _⟩
      have sameId : ident items[index] = ident item := by simpa using sameId
      have erased := perm_cons_eraseIdx (List.getElem?_eq_getElem inRange)
      have filtered := filter_ne_perm ident nodup (List.getElem_mem inRange)
      rw [sameId] at filtered
      apply (set_perm_cons_eraseIdx items item inRange).trans
      exact ((erased.symm.trans filtered).cons_inv).cons item

theorem mem_upsertBy (nodup : (items.map ident).Nodup) {other : Item} :
    other ∈ upsertBy ident items item ↔
      other = item ∨ other ∈ items ∧ ident other ≠ ident item := by
  rw [(upsertBy_perm nodup).mem_iff]
  simp

theorem nodup_ident_upsertBy (nodup : (items.map ident).Nodup) :
    ((upsertBy ident items item).map ident).Nodup := by
  rw [((upsertBy_perm nodup).map ident).nodup_iff, List.map_cons, List.nodup_cons]
  refine ⟨?_, ?_⟩
  · simp
  · exact nodup.sublist (List.filter_sublist.map ident)

/-- What is unique of the entries stays so exactly if the entry brings nothing that another
identity has. -/
theorem nodup_map_upsertBy_iff {Part : Type*} {part : Item → Part}
    (nodup : (items.map ident).Nodup) (unique : (items.map part).Nodup) :
    ((upsertBy ident items item).map part).Nodup ↔
      ∀ other ∈ items, ident other ≠ ident item → part other ≠ part item := by
  rw [((upsertBy_perm nodup).map part).nodup_iff, List.map_cons, List.nodup_cons]
  have rest : ((items.filter fun candidate =>
      decide (ident candidate ≠ ident item)).map part).Nodup :=
    unique.sublist (List.filter_sublist.map part)
  rw [and_iff_left rest, List.mem_map]
  constructor
  · intro apart other mem differs same
    exact apart ⟨other, List.mem_filter.mpr ⟨mem, decide_eq_true differs⟩, same⟩
  · rintro apart ⟨other, mem, same⟩
    rcases List.mem_filter.mp mem with ⟨otherMem, differs⟩
    exact apart other otherMem (by simpa using differs) same

end Brunomnia.Library
