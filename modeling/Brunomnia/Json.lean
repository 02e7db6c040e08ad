import Mathlib

/-!
# JSON values

The values that cross the boundaries of the application: snapshots, stored
files, and the parts of a resource that an operation carries along without
reading. A finite number is the rational it denotes. The members of an object
are kept in the order of creation, which `JSON.stringify` shows.
-/

namespace Brunomnia

inductive Json where
  | null
  | bool (value : Bool)
  | num (value : ℚ)
  | str (value : String)
  | arr (items : List Json)
  | obj (members : List (String × Json))

namespace Json

mutual

/-- Equality of JSON values is decided by comparing the trees. -/
def decEq : (left right : Json) → Decidable (left = right)
  | .null, .null => isTrue rfl
  | .bool left, .bool right => decidable_of_iff (left = right) (by simp)
  | .num left, .num right => decidable_of_iff (left = right) (by simp)
  | .str left, .str right => decidable_of_iff (left = right) (by simp)
  | .arr left, .arr right =>
      @decidable_of_iff _ (left = right) (by simp) (decEqItems left right)
  | .obj left, .obj right =>
      @decidable_of_iff _ (left = right) (by simp) (decEqMembers left right)
  | .null, .bool _ | .null, .num _ | .null, .str _ | .null, .arr _ | .null, .obj _
  | .bool _, .null | .bool _, .num _ | .bool _, .str _ | .bool _, .arr _ | .bool _, .obj _
  | .num _, .null | .num _, .bool _ | .num _, .str _ | .num _, .arr _ | .num _, .obj _
  | .str _, .null | .str _, .bool _ | .str _, .num _ | .str _, .arr _ | .str _, .obj _
  | .arr _, .null | .arr _, .bool _ | .arr _, .num _ | .arr _, .str _ | .arr _, .obj _
  | .obj _, .null | .obj _, .bool _ | .obj _, .num _ | .obj _, .str _ | .obj _, .arr _ =>
      isFalse (by simp)

def decEqItems : (left right : List Json) → Decidable (left = right)
  | [], [] => isTrue rfl
  | [], _ :: _ | _ :: _, [] => isFalse (by simp)
  | left :: lefts, right :: rights =>
      match decEq left right, decEqItems lefts rights with
      | isTrue headEq, isTrue tailEq => isTrue (by rw [headEq, tailEq])
      | isFalse headNe, _ => isFalse fun eq => headNe (List.cons.inj eq).1
      | _, isFalse tailNe => isFalse fun eq => tailNe (List.cons.inj eq).2

def decEqMembers : (left right : List (String × Json)) → Decidable (left = right)
  | [], [] => isTrue rfl
  | [], _ :: _ | _ :: _, [] => isFalse (by simp)
  | (leftKey, left) :: lefts, (rightKey, right) :: rights =>
      match decEq left right, decEqMembers lefts rights with
      | isTrue headEq, isTrue tailEq =>
          decidable_of_iff (leftKey = rightKey) (by simp [headEq, tailEq])
      | isFalse headNe, _ => isFalse fun eq => headNe (Prod.mk.inj (List.cons.inj eq).1).2
      | _, isFalse tailNe => isFalse fun eq => tailNe (List.cons.inj eq).2

end

instance : DecidableEq Json := decEq

mutual

/-- The number of containers inside each other, at most. -/
def depth : Json → ℕ
  | .arr items => depthItems items + 1
  | .obj members => depthMembers members + 1
  | _ => 0

def depthItems : List Json → ℕ
  | [] => 0
  | item :: rest => max (depth item) (depthItems rest)

def depthMembers : List (String × Json) → ℕ
  | [] => 0
  | (_, value) :: rest => max (depth value) (depthMembers rest)

end

/-! ## Objects -/

/-- The value of a canonical array index, which JavaScript lists before other keys. -/
def arrayIndex? (key : String) : Option ℕ :=
  let digits := key.toList
  let index := digits.foldl (fun value digit => 10 * value + (digit.toNat - '0'.toNat)) 0
  if digits ≠ [] ∧ digits.all Char.isDigit ∧ (digits.head? = some '0' → digits = ['0']) ∧
      index < 4294967295 then some index
  else none

/-- A new array index goes before the larger ones and the other keys. -/
def insertIndex (index : ℕ) (key : String) (value : Json) :
    List (String × Json) → List (String × Json)
  | [] => [(key, value)]
  | entry :: rest =>
      if (arrayIndex? entry.1).any (· < index) then entry :: insertIndex index key value rest
      else (key, value) :: entry :: rest

/-- Change the value of a present key. -/
def replaceMember (key : String) (value : Json) : List (String × Json) → List (String × Json)
  | [] => []
  | entry :: rest =>
      if entry.1 = key then (key, value) :: rest else entry :: replaceMember key value rest

/-- `members[key] = value`: a present key keeps its position. -/
def assign (members : List (String × Json)) (key : String) (value : Json) :
    List (String × Json) :=
  if key ∈ members.map Prod.fst then replaceMember key value members
  else
    match arrayIndex? key with
    | some index => insertIndex index key value members
    | none => members ++ [(key, value)]

/-- The members of an object; other values have none. -/
def members : Json → List (String × Json)
  | .obj members => members
  | _ => []

/-- `value[key]`, with no result for `undefined`. -/
def get? (value : Json) (key : String) : Option Json :=
  value.members.lookup key

/-- Assign members one after the other. -/
def assignAll (members updates : List (String × Json)) : List (String × Json) :=
  updates.foldl (fun members update => assign members update.1 update.2) members

/-- The object spread `{ ...value, ...updates }`. -/
def spread (value : Json) (updates : List (String × Json)) : Json :=
  .obj (assignAll value.members updates)

/-- The object without one member. -/
def without (value : Json) (key : String) : Json :=
  .obj (value.members.filter fun entry => entry.1 ≠ key)

/-- The members under other keys. -/
def membersExcept (keys : List String) (value : Json) : List (String × Json) :=
  value.members.filter fun entry => entry.1 ∉ keys

/-- A string member; an optional one that is absent reads as the empty string. -/
def text (value : Json) (key : String) : String :=
  match value.get? key with
  | some (.str content) => content
  | _ => ""

/-- `value[key] === true`. -/
def flag (value : Json) (key : String) : Bool :=
  value.get? key = some (.bool true)

/-- `value[key] ?? []` for a member that is an array when it is there. -/
def list (value : Json) (key : String) : List Json :=
  match value.get? key with
  | some (.arr items) => items
  | _ => []

/-- Whether a value passes a JavaScript condition. -/
def truthy : Json → Bool
  | .null => false
  | .bool value => value
  | .num value => value ≠ 0
  | .str value => value ≠ ""
  | .arr _ | .obj _ => true

def isObject : Json → Bool
  | .obj _ => true
  | _ => false

def id (value : Json) : String :=
  value.text "id"

/-! ## Assignment -/

/-- A key of a member list. -/
def HasKey (members : List (String × Json)) (key : String) : Prop :=
  key ∈ members.map Prod.fst

theorem lookup_cons_ite {Value : Type*} (entry : String × Value) (rest : List (String × Value))
    (key : String) :
    List.lookup key (entry :: rest) =
      if key = entry.1 then some entry.2 else rest.lookup key := by
  rw [List.lookup_cons]
  by_cases keyEq : key = entry.1
  · simp [keyEq]
  · rw [if_neg keyEq, beq_false_of_ne keyEq]

theorem depth_lt_of_lookup {members : List (String × Json)} {key : String} {value : Json}
    (found : members.lookup key = some value) : value.depth < (Json.obj members).depth := by
  induction members with
  | nil => simp at found
  | cons entry rest ih =>
      rw [lookup_cons_ite] at found
      simp only [depth, depthMembers] at ih ⊢
      split at found
      · have valueEq : entry.2 = value := Option.some.inj found
        rw [valueEq]
        omega
      · have below := ih found
        omega

theorem hasKey_of_lookup {members : List (String × Json)} {key : String} {value : Json}
    (found : members.lookup key = some value) : HasKey members key := by
  induction members with
  | nil => simp at found
  | cons entry rest ih =>
      rw [lookup_cons_ite] at found
      by_cases keyEq : key = entry.1
      · simp [HasKey, keyEq]
      · have tailFound : rest.lookup key = some value := by simpa [keyEq] using found
        exact List.mem_cons_of_mem _ (ih tailFound)

theorem replaceMember_cons (key : String) (value : Json) (entry : String × Json)
    (rest : List (String × Json)) :
    replaceMember key value (entry :: rest) =
      if entry.1 = key then (key, value) :: rest else entry :: replaceMember key value rest := rfl

theorem insertIndex_cons (index : ℕ) (key : String) (value : Json) (entry : String × Json)
    (rest : List (String × Json)) :
    insertIndex index key value (entry :: rest) =
      if (arrayIndex? entry.1).any (· < index) then entry :: insertIndex index key value rest
      else (key, value) :: entry :: rest := rfl

theorem lookup_replaceMember_self {members : List (String × Json)} {key : String}
    (present : HasKey members key) (value : Json) :
    (replaceMember key value members).lookup key = some value := by
  induction members with
  | nil => simp [HasKey] at present
  | cons entry rest ih =>
      rw [replaceMember_cons]
      by_cases keyEq : entry.1 = key
      · simp [keyEq]
      · have tailPresent : HasKey rest key := by
          simpa [HasKey, Ne.symm keyEq] using present
        rw [if_neg keyEq, lookup_cons_ite]
        simpa [Ne.symm keyEq] using ih tailPresent

theorem lookup_replaceMember_ne {members : List (String × Json)} {key other : String}
    (different : other ≠ key) (value : Json) :
    (replaceMember key value members).lookup other = members.lookup other := by
  induction members with
  | nil => rfl
  | cons entry rest ih =>
      rw [replaceMember_cons]
      by_cases keyEq : entry.1 = key
      · simp [keyEq, lookup_cons_ite, different]
      · rw [if_neg keyEq, lookup_cons_ite, lookup_cons_ite, ih]

theorem replaceMember_replaceMember (key : String) (first second : Json)
    (members : List (String × Json)) :
    replaceMember key second (replaceMember key first members) =
      replaceMember key second members := by
  induction members with
  | nil => rfl
  | cons entry rest ih =>
      by_cases keyEq : entry.1 = key
      · simp [replaceMember_cons, keyEq]
      · simp [replaceMember_cons, keyEq, ih]

theorem replaceMember_comm {key other : String} (different : key ≠ other) (first second : Json)
    (members : List (String × Json)) :
    replaceMember other second (replaceMember key first members) =
      replaceMember key first (replaceMember other second members) := by
  induction members with
  | nil => rfl
  | cons entry rest ih =>
      by_cases keyEq : entry.1 = key
      · simp [replaceMember_cons, keyEq, different]
      · by_cases otherEq : entry.1 = other
        · simp [replaceMember_cons, otherEq, different.symm]
        · simp [replaceMember_cons, keyEq, otherEq, ih]

theorem replaceMember_of_lookup {members : List (String × Json)} {key : String} {value : Json}
    (found : members.lookup key = some value) : replaceMember key value members = members := by
  induction members with
  | nil => rfl
  | cons entry rest ih =>
      rw [lookup_cons_ite] at found
      by_cases keyEq : entry.1 = key
      · have valueEq : entry.2 = value := by simpa [keyEq] using found
        rw [replaceMember_cons, if_pos keyEq, ← keyEq, ← valueEq]
      · have tailFound : rest.lookup key = some value := by
          simpa [Ne.symm keyEq] using found
        rw [replaceMember_cons, if_neg keyEq, ih tailFound]

theorem assign_of_hasKey {members : List (String × Json)} {key : String}
    (present : HasKey members key) (value : Json) :
    assign members key value = replaceMember key value members := by
  unfold HasKey at present
  rw [assign, if_pos present]

theorem lookup_insertIndex {members : List (String × Json)} {key : String}
    (absent : ¬ HasKey members key) (index : ℕ) (value : Json) (other : String) :
    (insertIndex index key value members).lookup other =
      if other = key then some value else members.lookup other := by
  induction members with
  | nil => by_cases otherEq : other = key <;> simp [insertIndex, lookup_cons_ite, otherEq]
  | cons entry rest ih =>
      simp only [HasKey, List.map_cons, List.mem_cons, not_or] at absent
      rw [insertIndex_cons]
      by_cases smaller : (arrayIndex? entry.1).any (· < index)
      · rw [if_pos smaller, lookup_cons_ite, lookup_cons_ite, ih absent.2]
        by_cases otherEq : other = key
        · simp [otherEq, absent.1]
        · simp [otherEq]
      · rw [if_neg smaller, lookup_cons_ite]

theorem lookup_append_absent {members : List (String × Json)} {key : String}
    (absent : ¬ HasKey members key) (value : Json) (other : String) :
    (members ++ [(key, value)]).lookup other =
      if other = key then some value else members.lookup other := by
  induction members with
  | nil => by_cases otherEq : other = key <;> simp [lookup_cons_ite, otherEq]
  | cons entry rest ih =>
      simp only [HasKey, List.map_cons, List.mem_cons, not_or] at absent
      rw [List.cons_append, lookup_cons_ite, lookup_cons_ite, ih absent.2]
      by_cases otherEq : other = key
      · simp [otherEq, absent.1]
      · simp [otherEq]

theorem lookup_assign (members : List (String × Json)) (key : String) (value : Json)
    (other : String) :
    (assign members key value).lookup other =
      if other = key then some value else members.lookup other := by
  by_cases present : HasKey members key
  · rw [assign_of_hasKey present]
    by_cases otherEq : other = key
    · rw [if_pos otherEq, otherEq, lookup_replaceMember_self present]
    · rw [if_neg otherEq, lookup_replaceMember_ne otherEq]
  · have notMem : key ∉ members.map Prod.fst := present
    rw [assign, if_neg notMem]
    cases arrayIndex? key with
    | some index => exact lookup_insertIndex present index value other
    | none => exact lookup_append_absent present value other

theorem hasKey_iff_lookup {members : List (String × Json)} {key : String} :
    HasKey members key ↔ (members.lookup key).isSome := by
  constructor
  · intro present
    induction members with
    | nil => simp [HasKey] at present
    | cons entry rest ih =>
        rw [lookup_cons_ite]
        by_cases keyEq : key = entry.1
        · simp [keyEq]
        · have tailPresent : HasKey rest key := by simpa [HasKey, keyEq] using present
          simpa [keyEq] using ih tailPresent
  · intro found
    exact hasKey_of_lookup (Option.get_mem found)

theorem hasKey_assign {members : List (String × Json)} {key other : String} {value : Json} :
    HasKey (assign members key value) other ↔ other = key ∨ HasKey members other := by
  rw [hasKey_iff_lookup, hasKey_iff_lookup, lookup_assign]
  by_cases otherEq : other = key
  · simp [otherEq]
  · simp [otherEq]

theorem assign_comm {members : List (String × Json)} {key other : String}
    (different : key ≠ other) (present : HasKey members key) (otherPresent : HasKey members other)
    (first second : Json) :
    assign (assign members key first) other second =
      assign (assign members other second) key first := by
  rw [assign_of_hasKey (hasKey_assign.mpr (Or.inr otherPresent)),
    assign_of_hasKey (hasKey_assign.mpr (Or.inr present)), assign_of_hasKey present,
    assign_of_hasKey otherPresent]
  exact replaceMember_comm different first second members

theorem assign_assign {members : List (String × Json)} {key : String}
    (present : HasKey members key) (first second : Json) :
    assign (assign members key first) key second = assign members key second := by
  rw [assign_of_hasKey (hasKey_assign.mpr (Or.inr present)), assign_of_hasKey present,
    assign_of_hasKey present]
  exact replaceMember_replaceMember key first second members

theorem assign_of_lookup {members : List (String × Json)} {key : String} {value : Json}
    (found : members.lookup key = some value) : assign members key value = members := by
  rw [assign_of_hasKey (hasKey_of_lookup found)]
  exact replaceMember_of_lookup found

theorem lookup_assignAll_of_not_mem {members updates : List (String × Json)} {key : String}
    (untouched : key ∉ updates.map Prod.fst) :
    (assignAll members updates).lookup key = members.lookup key := by
  induction updates generalizing members with
  | nil => rfl
  | cons update rest ih =>
      simp only [List.map_cons, List.mem_cons, not_or] at untouched
      change (assignAll (assign members update.1 update.2) rest).lookup key = _
      rw [ih untouched.2, lookup_assign, if_neg untouched.1]

theorem hasKey_assignAll {members updates : List (String × Json)} {key : String}
    (present : HasKey members key) : HasKey (assignAll members updates) key := by
  induction updates generalizing members with
  | nil => exact present
  | cons update rest ih => exact ih (hasKey_assign.mpr (Or.inr present))

theorem hasKey_assignAll_of_mem {members updates : List (String × Json)} {key : String}
    (updated : key ∈ updates.map Prod.fst) : HasKey (assignAll members updates) key := by
  induction updates generalizing members with
  | nil => simp at updated
  | cons update rest ih =>
      change HasKey (assignAll (assign members update.1 update.2) rest) key
      rcases List.mem_cons.mp updated with keyEq | restMem
      · exact hasKey_assignAll (hasKey_assign.mpr (Or.inl keyEq))
      · exact ih restMem

theorem assignAll_absorb_assign {members updates : List (String × Json)} {key : String}
    (present : ∀ update ∈ updates, HasKey members update.1)
    (overwritten : key ∈ updates.map Prod.fst) (value : Json) :
    assignAll (assign members key value) updates = assignAll members updates := by
  induction updates generalizing members with
  | nil => simp at overwritten
  | cons update rest ih =>
      have headPresent := present update (List.mem_cons_self)
      change assignAll (assign (assign members key value) update.1 update.2) rest =
        assignAll (assign members update.1 update.2) rest
      by_cases keyEq : key = update.1
      · subst key
        rw [assign_assign headPresent]
      · have restMem : key ∈ rest.map Prod.fst := by simpa [keyEq] using overwritten
        have keyPresent : HasKey members key := by
          rcases List.mem_map.mp restMem with ⟨later, laterMem, rfl⟩
          exact present later (List.mem_cons_of_mem _ laterMem)
        rw [assign_comm keyEq keyPresent headPresent]
        refine ih (fun later laterMem => ?_) restMem
        exact hasKey_assign.mpr (Or.inr (present later (List.mem_cons_of_mem _ laterMem)))

theorem assignAll_absorb {members earlier updates : List (String × Json)}
    (nodup : (earlier.map Prod.fst).Nodup) (present : ∀ update ∈ updates, HasKey members update.1)
    (overwritten : ∀ update ∈ earlier,
      update.1 ∈ updates.map Prod.fst ∨ members.lookup update.1 = some update.2) :
    assignAll (assignAll members earlier) updates = assignAll members updates := by
  induction earlier generalizing members with
  | nil => rfl
  | cons update rest ih =>
      rw [List.map_cons, List.nodup_cons] at nodup
      change assignAll (assignAll (assign members update.1 update.2) rest) updates = _
      rw [ih nodup.2 (fun later laterMem => hasKey_assign.mpr (Or.inr (present later laterMem)))]
      · rcases overwritten update (List.mem_cons_self) with later | found
        · exact assignAll_absorb_assign present later _
        · rw [assign_of_lookup found]
      · intro later laterMem
        have different : later.1 ≠ update.1 := fun keyEq =>
          nodup.1 (keyEq ▸ List.mem_map_of_mem laterMem)
        rw [lookup_assign, if_neg different]
        exact overwritten later (List.mem_cons_of_mem _ laterMem)

theorem lookup_assignAll {members updates : List (String × Json)}
    (nodup : (updates.map Prod.fst).Nodup) {update : String × Json}
    (updateMem : update ∈ updates) :
    (assignAll members updates).lookup update.1 = some update.2 := by
  induction updates generalizing members with
  | nil => simp at updateMem
  | cons head rest ih =>
      rw [List.map_cons, List.nodup_cons] at nodup
      change (assignAll (assign members head.1 head.2) rest).lookup update.1 = _
      rcases List.mem_cons.mp updateMem with rfl | restMem
      · rw [lookup_assignAll_of_not_mem nodup.1, lookup_assign, if_pos rfl]
      · exact ih nodup.2 restMem

theorem assignAll_of_lookup {members updates : List (String × Json)}
    (found : ∀ update ∈ updates, members.lookup update.1 = some update.2) :
    assignAll members updates = members := by
  induction updates with
  | nil => rfl
  | cons update rest ih =>
      change assignAll (assign members update.1 update.2) rest = members
      rw [assign_of_lookup (found update (List.mem_cons_self))]
      exact ih fun later laterMem => found later (List.mem_cons_of_mem _ laterMem)

/-! ## Objects after a spread -/

@[simp]
theorem members_spread (value : Json) (updates : List (String × Json)) :
    (value.spread updates).members = assignAll value.members updates := rfl

theorem get?_spread_of_not_mem {value : Json} {updates : List (String × Json)} {key : String}
    (untouched : key ∉ updates.map Prod.fst) : (value.spread updates).get? key = value.get? key :=
  lookup_assignAll_of_not_mem untouched

theorem get?_spread {value : Json} {updates : List (String × Json)}
    (nodup : (updates.map Prod.fst).Nodup) {key : String} {content : Json}
    (updateMem : (key, content) ∈ updates) : (value.spread updates).get? key = some content :=
  lookup_assignAll nodup updateMem

theorem get?_spread_singleton (value : Json) (key : String) (content : Json) (other : String) :
    (value.spread [(key, content)]).get? other =
      if other = key then some content else value.get? other :=
  lookup_assign value.members key content other

theorem get?_spread_or (value : Json) (updates : List (String × Json)) (key : String) :
    (value.spread updates).get? key =
      (((Json.obj []).spread updates).get? key).or (value.get? key) := by
  change (assignAll value.members updates).lookup key =
    ((assignAll [] updates).lookup key).or (value.members.lookup key)
  generalize value.members = members
  induction updates using List.reverseRecOn with
  | nil => rfl
  | append_singleton earlier update ih =>
      have last (start : List (String × Json)) : assignAll start (earlier ++ [update]) =
          assign (assignAll start earlier) update.1 update.2 := by
        simp [assignAll]
      rw [last, last, lookup_assign, lookup_assign, ih]
      by_cases same : key = update.1
      · simp [same]
      · simp [same]

theorem spread_of_get? {members updates : List (String × Json)}
    (found : ∀ update ∈ updates, (Json.obj members).get? update.1 = some update.2) :
    (Json.obj members).spread updates = .obj members := by
  rw [spread]
  exact congrArg Json.obj (assignAll_of_lookup found)

/-! ## The members under other keys -/

theorem filter_assign {members : List (String × Json)} {key : String} {value : Json}
    {kept : String × Json → Bool} (dropped : ∀ content, kept (key, content) = false) :
    (assign members key value).filter kept = members.filter kept := by
  have replaced : (replaceMember key value members).filter kept = members.filter kept := by
    induction members with
    | nil => rfl
    | cons entry rest ih =>
        rcases entry with ⟨name, content⟩
        by_cases same : name = key
        · subst same
          simp [replaceMember_cons, dropped]
        · simp [replaceMember_cons, same, List.filter_cons, ih]
  have inserted (index : ℕ) :
      (insertIndex index key value members).filter kept = members.filter kept := by
    clear replaced
    induction members with
    | nil => simp [insertIndex, dropped]
    | cons entry rest ih =>
        by_cases smaller : (arrayIndex? entry.1).any (· < index) = true
        · simp [insertIndex_cons, smaller, List.filter_cons, ih]
        · simp [insertIndex_cons, smaller, dropped]
  unfold assign
  split
  · exact replaced
  · split
    · exact inserted _
    · simp [dropped]

theorem membersExcept_spread {keys : List String} {value : Json}
    {updates : List (String × Json)} (within : ∀ update ∈ updates, update.1 ∈ keys) :
    (value.spread updates).membersExcept keys = value.membersExcept keys := by
  change (assignAll value.members updates).filter _ = value.members.filter _
  generalize value.members = members
  induction updates generalizing members with
  | nil => rfl
  | cons update rest ih =>
      apply Eq.trans (ih (fun later laterMem => within later (List.mem_cons_of_mem _ laterMem)) _)
      apply filter_assign
      simp [within update List.mem_cons_self]

theorem text_congr {value other : Json} {key : String} (same : value.get? key = other.get? key) :
    value.text key = other.text key := by
  rw [text, text, same]

theorem list_of_get? {value : Json} {key : String} {items : List Json}
    (found : value.get? key = some (.arr items)) : value.list key = items := by
  rw [list, found]

theorem text_of_get? {value : Json} {key content : String}
    (found : value.get? key = some (.str content)) : value.text key = content := by
  rw [text, found]

end Json

end Brunomnia

/-!
## Inherited properties

Reading a property of an object that has none under that name finds what is inherited from
`Object.prototype`: a function under some names, and `Object.prototype` itself under
`__proto__`, where assigning adds no property.
-/

namespace Brunomnia

def inheritedFunctions : List String :=
  ["constructor", "__defineGetter__", "__defineSetter__", "hasOwnProperty", "__lookupGetter__",
    "__lookupSetter__", "isPrototypeOf", "propertyIsEnumerable", "toString", "valueOf",
    "toLocaleString"]

/-- The name under which objects inherit a property with a getter and a setter. -/
def prototypeName : String :=
  "__proto__"

end Brunomnia
