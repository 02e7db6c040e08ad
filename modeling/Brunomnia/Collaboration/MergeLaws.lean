import Brunomnia.Library.Lists
import Brunomnia.Json
import Brunomnia.Collaboration.MergeBase

/-!
# Laws of the three-way merge

A merge descends into the members of objects that both sides have and returns one side as a
whole everywhere else. What it makes of three values is said path by path: a change of one
side is taken, a conflict is reported where both sides made different changes that cannot be
merged member by member.
-/

namespace Brunomnia.Collaboration

open Brunomnia.Library Json

/-! ## Values under paths -/

/-- A member of a value; what is no object has none. -/
def member (value : Option Json) (key : String) : Option Json :=
  (record value).bind fun members => members.lookup key

/-- The value under the members that a path names. -/
def valueAt : Option Json → List String → Option Json
  | value, [] => value
  | value, key :: rest => valueAt (member value key) rest

@[simp]
theorem valueAt_nil (value : Option Json) : valueAt value [] = value := rfl

@[simp]
theorem valueAt_cons (value : Option Json) (key : String) (rest : List String) :
    valueAt value (key :: rest) = valueAt (member value key) rest := rfl

@[simp]
theorem member_obj (members : List (String × Json)) (key : String) :
    member (some (.obj members)) key = members.lookup key := rfl

theorem record_isSome_iff {value : Option Json} :
    (record value).isSome ↔ ∃ members, value = some (.obj members) := by
  constructor
  · intro found
    unfold record at found
    split at found
    · exact ⟨_, rfl⟩
    · simp at found
  · rintro ⟨members, rfl⟩
    rfl

theorem getD_record_lookup (value : Option Json) (key : String) :
    ((record value).getD []).lookup key = member value key := by
  cases found : record value with
  | none => simp [member, found]
  | some members => simp [member, found]

/-! ## One level of a merge -/

/-- Both sides changed a value, and not to the same one. -/
structure Contended (base mine theirs : Option Json) : Prop where
  apart : mine ≠ theirs
  mineChanged : mine ≠ base
  theirsChanged : theirs ≠ base

/-- Both sides are objects that can be merged member by member. -/
structure Divides (base mine theirs : Option Json) : Prop where
  mineRecord : (record mine).isSome
  theirsRecord : (record theirs).isSome
  baseRecord : (record base).isSome ∨ base = none

/-- A value that a merge takes from one side as a whole. -/
inductive Settles (base mine theirs : Option Json) : Option Json → Prop where
  | agreed (same : mine = theirs) : Settles base mine theirs mine
  | mineKept (same : mine = base) : Settles base mine theirs theirs
  | theirsKept (same : theirs = base) : Settles base mine theirs mine

theorem Settles.not_contended {base mine theirs merged : Option Json}
    (settles : Settles base mine theirs merged) : ¬ Contended base mine theirs := by
  rintro ⟨apart, mineChanged, theirsChanged⟩
  cases settles with
  | agreed same => exact apart same
  | mineKept same => exact mineChanged same
  | theirsKept same => exact theirsChanged same

/-- The conflict that a merge reports for a value. -/
def conflictOf (base mine theirs : Option Json) (path : String) : CollaborationMergeConflict where
  path := if path = "" then "/" else path
  base := base
  mine := mine
  theirs := theirs

/-- The members that a merge goes through. -/
def mergedKeys (base mine theirs : Option Json) : List String :=
  (((record base).getD []).map Prod.fst ++ ((record mine).getD []).map Prod.fst ++
    ((record theirs).getD []).map Prod.fst).eraseDups

/-- A merge with as much fuel as it needs. -/
def threeWay (base mine theirs : Option Json) (path : String) :
    Option Json × List CollaborationMergeConflict :=
  mergeValue (mergeDepth mine) base mine theirs path

theorem mergeValue_eq_threeWay {fuel : ℕ} {mine : Option Json} (enough : mergeDepth mine ≤ fuel)
    (base theirs : Option Json) (path : String) :
    mergeValue fuel base mine theirs path = threeWay base mine theirs path := by
  induction fuel, enough using Nat.le_induction with
  | base => rfl
  | succ fuel enough ih => rw [mergeValue_of_depth_le enough, ih]

theorem mergeDepth_member {mine : Option Json} (isRecord : (record mine).isSome) (key : String) :
    mergeDepth (member mine key) < mergeDepth mine := by
  rcases record_isSome_iff.mp isRecord with ⟨members, rfl⟩
  cases found : members.lookup key with
  | none => simp [mergeDepth, found, Json.depth]
  | some value => simpa [mergeDepth, found] using depth_lt_of_lookup found

/-- Sides that agree merge to what they agree on, whatever the base is. -/
theorem threeWay_of_eq {base mine theirs : Option Json} (same : mine = theirs) (path : String) :
    threeWay base mine theirs path = (mine, []) := by
  unfold threeWay mergeValue
  rw [if_pos same]

/-- Assigning the results under unique keys reads every result back. -/
theorem lookup_assignAll_results {keys : List String} (nodup : keys.Nodup)
    (result : String → Option Json) (key : String) :
    (assignAll [] (keys.filterMap fun key => (result key).map fun value => (key, value))).lookup
      key = if key ∈ keys then result key else none := by
  have names : ((keys.filterMap fun key => (result key).map fun value => (key, value)).map
      Prod.fst) = keys.filter fun key => (result key).isSome := by
    induction keys with
    | nil => rfl
    | cons key rest ih =>
        rw [List.nodup_cons] at nodup
        cases outcome : result key with
        | none => simp [outcome, ih nodup.2]
        | some value => simp [outcome, ih nodup.2]
  have unique := names ▸ nodup.filter fun key => (result key).isSome
  cases outcome : result key with
  | none =>
      rw [lookup_assignAll_of_not_mem]
      · simp
      · rw [names]
        simp [outcome]
  | some value =>
      by_cases listed : key ∈ keys
      · rw [if_pos listed]
        have assigned : (key, value) ∈
            keys.filterMap fun key => (result key).map fun value => (key, value) :=
          List.mem_filterMap.mpr ⟨key, listed, by rw [outcome]; rfl⟩
        exact lookup_assignAll unique assigned
      · rw [if_neg listed, lookup_assignAll_of_not_mem]
        · rfl
        · rw [names]
          simp [listed]

/-- A member that a merge does not go through is absent on every side. -/
theorem members_absent {base mine theirs : Option Json} {key : String}
    (unlisted : key ∉ mergedKeys base mine theirs) :
    member base key = none ∧ member mine key = none ∧ member theirs key = none := by
  have absent {value : Option Json} (notKey : key ∉ ((record value).getD []).map Prod.fst) :
      member value key = none := by
    rw [← getD_record_lookup]
    cases found : ((record value).getD []).lookup key with
    | none => rfl
    | some content => exact absurd (hasKey_of_lookup found) notKey
  simp only [mergedKeys, List.mem_eraseDups, List.mem_append, not_or] at unlisted
  exact ⟨absent unlisted.1.1, absent unlisted.1.2, absent unlisted.2⟩

theorem nodup_mergedKeys (base mine theirs : Option Json) : (mergedKeys base mine theirs).Nodup :=
  nodup_eraseDups _

/-- What one level of a merge does, with the rest of it said by the merges of the members. -/
theorem threeWay_cases (base mine theirs : Option Json) (path : String) :
    (∃ merged, Settles base mine theirs merged ∧
      threeWay base mine theirs path = (merged, [])) ∨
    (Contended base mine theirs ∧ ¬ Divides base mine theirs ∧
      threeWay base mine theirs path = (mine, [conflictOf base mine theirs path])) ∨
    (Contended base mine theirs ∧ Divides base mine theirs ∧
      ∃ members, threeWay base mine theirs path =
          (some (.obj members), (mergedKeys base mine theirs).flatMap fun key =>
            (threeWay (member base key) (member mine key) (member theirs key)
              (pointer path key)).2) ∧
        ∀ key, members.lookup key =
          (threeWay (member base key) (member mine key) (member theirs key)
            (pointer path key)).1) := by
  by_cases agreed : mine = theirs
  · exact Or.inl ⟨mine, .agreed agreed, threeWay_of_eq agreed path⟩
  by_cases mineKept : mine = base
  · refine Or.inl ⟨theirs, .mineKept mineKept, ?_⟩
    unfold threeWay mergeValue
    rw [if_neg agreed, if_pos mineKept]
  by_cases theirsKept : theirs = base
  · refine Or.inl ⟨mine, .theirsKept theirsKept, ?_⟩
    unfold threeWay mergeValue
    rw [if_neg agreed, if_neg mineKept, if_pos theirsKept]
  refine Or.inr ?_
  have contended : Contended base mine theirs := ⟨agreed, mineKept, theirsKept⟩
  by_cases divides : Divides base mine theirs
  · refine Or.inr ⟨contended, divides, ?_⟩
    rcases Option.isSome_iff_exists.mp divides.mineRecord with ⟨mineMembers, mineRecord⟩
    rcases Option.isSome_iff_exists.mp divides.theirsRecord with ⟨theirsMembers, theirsRecord⟩
    have above := mergeDepth_member divides.mineRecord
    rcases Nat.exists_eq_add_one_of_ne_zero (by have := above ""; omega : mergeDepth mine ≠ 0)
      with ⟨fuel, depthEq⟩
    have children (key : String) : mergeValue fuel (((record base).getD []).lookup key)
        (mineMembers.lookup key) (theirsMembers.lookup key) (pointer path key) =
          threeWay (member base key) (member mine key) (member theirs key) (pointer path key) := by
      have mineEq : mineMembers.lookup key = member mine key := by simp [member, mineRecord]
      have theirsEq : theirsMembers.lookup key = member theirs key := by
        simp [member, theirsRecord]
      rw [getD_record_lookup, mineEq, theirsEq]
      apply mergeValue_eq_threeWay
      have := above key
      omega
    have keysEq : (((record base).getD []).map Prod.fst ++ mineMembers.map Prod.fst ++
        theirsMembers.map Prod.fst).eraseDups = mergedKeys base mine theirs := by
      simp [mergedKeys, mineRecord, theirsRecord]
    refine ⟨assignAll [] ((mergedKeys base mine theirs).filterMap fun key =>
      (threeWay (member base key) (member mine key) (member theirs key)
        (pointer path key)).1.map fun value => (key, value)), ?_, ?_⟩
    · conv_lhs => rw [threeWay, depthEq]; unfold mergeValue
      rw [if_neg agreed, if_neg mineKept, if_neg theirsKept, mineRecord, theirsRecord]
      simp only [if_pos divides.baseRecord, keysEq, children, List.filterMap_map,
        List.flatMap_map]
      rfl
    · intro key
      rw [lookup_assignAll_results (nodup_mergedKeys base mine theirs) fun key =>
        (threeWay (member base key) (member mine key) (member theirs key) (pointer path key)).1]
      by_cases listed : key ∈ mergedKeys base mine theirs
      · exact if_pos listed
      · rcases members_absent listed with ⟨_, mineAbsent, theirsAbsent⟩
        rw [if_neg listed, threeWay_of_eq (mineAbsent.trans theirsAbsent.symm), mineAbsent]
  · refine Or.inl ⟨contended, divides, ?_⟩
    unfold threeWay mergeValue
    rw [if_neg agreed, if_neg mineKept, if_neg theirsKept]
    split
    · rename_i fuel mineMembers theirsMembers _ mineRecord theirsRecord
      rw [if_neg]
      · rfl
      · intro baseRecord
        exact divides ⟨by simp [mineRecord], by simp [theirsRecord], baseRecord⟩
    · rfl

/-- What holds of a merge if it does whenever it holds of the merges of the members, holds of
every merge: the merges of the members are of less depth. -/
theorem threeWay_induction {motive : Option Json → Option Json → Option Json → String → Prop}
    (level : ∀ base mine theirs path, ((record mine).isSome → ∀ key,
      motive (member base key) (member mine key) (member theirs key) (pointer path key)) →
        motive base mine theirs path)
    (base mine theirs : Option Json) (path : String) : motive base mine theirs path := by
  induction depthEq : mergeDepth mine using Nat.strong_induction_on
    generalizing base mine theirs path with
  | _ depth ih =>
      apply level
      intro isRecord key
      exact ih _ (depthEq ▸ mergeDepth_member isRecord key) _ _ _ _ rfl

/-! ## One-sided changes -/

/-- No object in a value has a member under a name that every object inherits. -/
def PlainMembers (value : Option Json) : Prop :=
  ∀ parts members, valueAt value parts = some (.obj members) →
    ∀ key ∈ members.map Prod.fst, key ∉ inheritedFunctions ∧ key ≠ prototypeName

/-- A value where both sides changed it differently, and where they cannot be merged member by
member although they can be above it. -/
structure ConflictAt (base mine theirs : Option Json) (parts : List String) : Prop where
  contended : Contended (valueAt base parts) (valueAt mine parts) (valueAt theirs parts)
  undivided : ¬ Divides (valueAt base parts) (valueAt mine parts) (valueAt theirs parts)
  divided : ∀ before, before <+: parts → before ≠ parts →
    Divides (valueAt base before) (valueAt mine before) (valueAt theirs before)

/-- A merged value that has the change of either side, and that is an object where both sides
changed an object. -/
structure TakesChanges (base mine theirs merged : Option Json) : Prop where
  theirsTaken : mine = base → merged = theirs
  mineTaken : theirs = base → merged = mine
  agreedTaken : mine = theirs → merged = mine
  objectMade : Contended base mine theirs → Divides base mine theirs → (record merged).isSome

theorem Contended.of_valueAt {base mine theirs : Option Json} {parts : List String}
    (contended : Contended (valueAt base parts) (valueAt mine parts) (valueAt theirs parts)) :
    Contended base mine theirs where
  apart same := contended.apart (by rw [same])
  mineChanged same := contended.mineChanged (by rw [same])
  theirsChanged same := contended.theirsChanged (by rw [same])

theorem conflictAt_nil_iff {base mine theirs : Option Json} :
    ConflictAt base mine theirs [] ↔ Contended base mine theirs ∧ ¬ Divides base mine theirs := by
  constructor
  · exact fun conflict => ⟨conflict.contended, conflict.undivided⟩
  · rintro ⟨contended, undivided⟩
    exact ⟨contended, undivided, fun before isPrefix proper =>
      absurd (List.prefix_nil.mp isPrefix) proper⟩

theorem conflictAt_cons_iff {base mine theirs : Option Json} {key : String}
    {rest : List String} :
    ConflictAt base mine theirs (key :: rest) ↔ Divides base mine theirs ∧
      ConflictAt (member base key) (member mine key) (member theirs key) rest := by
  constructor
  · intro conflict
    refine ⟨conflict.divided [] (List.nil_prefix) (by simp), conflict.contended,
      conflict.undivided, ?_⟩
    intro before isPrefix proper
    apply conflict.divided (key :: before)
    · exact List.cons_prefix_cons.mpr ⟨rfl, isPrefix⟩
    · simpa using proper
  · rintro ⟨divides, conflict⟩
    refine ⟨conflict.contended, conflict.undivided, ?_⟩
    intro before isPrefix proper
    rcases List.prefix_cons_iff.mp isPrefix with rfl | ⟨inner, rfl, innerPrefix⟩
    · exact divides
    · exact conflict.divided inner innerPrefix (by simpa using proper)

theorem Settles.takesChanges {base mine theirs merged : Option Json}
    (settles : Settles base mine theirs merged) (parts : List String) :
    TakesChanges (valueAt base parts) (valueAt mine parts) (valueAt theirs parts)
      (valueAt merged parts) := by
  cases settles with
  | agreed same =>
      subst same
      exact ⟨fun _ => rfl, fun _ => rfl, fun _ => rfl, fun contended => absurd rfl contended.apart⟩
  | mineKept same =>
      subst same
      exact ⟨fun _ => rfl, id, Eq.symm, fun contended => absurd rfl contended.mineChanged⟩
  | theirsKept same =>
      subst same
      exact ⟨id, fun _ => rfl, fun _ => rfl, fun contended => absurd rfl contended.theirsChanged⟩

/-- Where no conflict is at a path or above it, the merge has the change of either side: no
change, insertion or deletion of one side is lost, and none is undone. -/
theorem threeWay_takesChanges {base mine theirs : Option Json} {path : String}
    {parts : List String}
    (clear : ∀ before, before <+: parts → ¬ ConflictAt base mine theirs before) :
    TakesChanges (valueAt base parts) (valueAt mine parts) (valueAt theirs parts)
      (valueAt (threeWay base mine theirs path).1 parts) := by
  induction parts generalizing base mine theirs path with
  | nil =>
      rcases threeWay_cases base mine theirs path with ⟨merged, settles, outcome⟩ |
        ⟨contended, undivided, _⟩ | ⟨contended, _, members, outcome, _⟩
      · rw [outcome]
        exact settles.takesChanges []
      · exact absurd (conflictAt_nil_iff.mpr ⟨contended, undivided⟩) (clear [] List.nil_prefix)
      · exact ⟨fun same => absurd same contended.mineChanged,
          fun same => absurd same contended.theirsChanged,
          fun same => absurd same contended.apart, fun _ _ => by rw [outcome]; rfl⟩
  | cons key rest ih =>
      rcases threeWay_cases base mine theirs path with ⟨merged, settles, outcome⟩ |
        ⟨contended, undivided, _⟩ | ⟨contended, divides, members, outcome, lookups⟩
      · rw [outcome]
        exact settles.takesChanges (key :: rest)
      · exact absurd (conflictAt_nil_iff.mpr ⟨contended, undivided⟩) (clear [] List.nil_prefix)
      · rw [outcome]
        simp only [valueAt_cons, member_obj, lookups key]
        apply ih
        intro before isPrefix conflict
        apply clear (key :: before) (List.cons_prefix_cons.mpr ⟨rfl, isPrefix⟩)
        exact conflictAt_cons_iff.mpr ⟨divides, conflict⟩

/-! ## Reported conflicts -/

/-- The pointer to a path. -/
def pathText (path : String) (parts : List String) : String :=
  parts.foldl pointer path

/-- The conflicts of a merge are those at the listed paths, each of them listed once, and the
listed paths are the ones that have a conflict. -/
structure ReportsConflicts (base mine theirs : Option Json) (path : String)
    (conflicts : List CollaborationMergeConflict) (paths : List (List String)) : Prop where
  nodup : paths.Nodup
  mem_iff : ∀ parts, parts ∈ paths ↔ ConflictAt base mine theirs parts
  conflicts_eq : conflicts = paths.map fun parts =>
    conflictOf (valueAt base parts) (valueAt mine parts) (valueAt theirs parts)
      (pathText path parts)

theorem mem_mergedKeys_of_contended {base mine theirs : Option Json} {key : String}
    (contended : Contended (member base key) (member mine key) (member theirs key)) :
    key ∈ mergedKeys base mine theirs := by
  by_contra unlisted
  rcases members_absent unlisted with ⟨_, mineAbsent, theirsAbsent⟩
  exact contended.apart (mineAbsent.trans theirsAbsent.symm)

/-- A merge reports a conflict exactly at the paths where both sides made different changes
that cannot be merged member by member. -/
theorem threeWay_reportsConflicts (base mine theirs : Option Json) (path : String) :
    ∃ paths, ReportsConflicts base mine theirs path (threeWay base mine theirs path).2 paths := by
  induction base, mine, theirs, path using threeWay_induction with
  | level base mine theirs path ih =>
      rcases threeWay_cases base mine theirs path with ⟨merged, settles, outcome⟩ |
        ⟨contended, undivided, outcome⟩ | ⟨contended, divides, members, outcome, _⟩
      · refine ⟨[], List.nodup_nil, fun parts => ?_, by rw [outcome]; rfl⟩
        simp only [List.not_mem_nil, false_iff]
        exact fun conflict => settles.not_contended conflict.contended.of_valueAt
      · refine ⟨[[]], List.nodup_singleton _, fun parts => ?_, by rw [outcome]; rfl⟩
        cases parts with
        | nil => simp [conflictAt_nil_iff, contended, undivided]
        | cons key rest => simp [conflictAt_cons_iff, undivided]
      · choose paths reports using ih divides.mineRecord
        refine ⟨(mergedKeys base mine theirs).flatMap fun key => (paths key).map (key :: ·),
          ?_, ?_, ?_⟩
        · rw [List.nodup_flatMap]
          constructor
          · exact fun key _ => (reports key).nodup.map (List.cons_injective)
          · apply (nodup_mergedKeys base mine theirs).imp
            intro key other apart
            simp only [Function.onFun, List.disjoint_left, List.mem_map, not_exists, not_and]
            rintro _ ⟨rest, _, rfl⟩ otherRest _ same
            exact apart (List.cons.inj same).1.symm
        · intro parts
          cases parts with
          | nil => simp [conflictAt_nil_iff, divides]
          | cons key rest =>
              simp only [List.mem_flatMap, List.mem_map, List.cons.injEq, conflictAt_cons_iff,
                divides, true_and, ← (reports key).mem_iff]
              constructor
              · rintro ⟨_, _, _, restMem, rfl, rfl⟩
                exact restMem
              · intro restMem
                refine ⟨key, ?_, rest, restMem, rfl, rfl⟩
                apply mem_mergedKeys_of_contended
                exact ((reports key).mem_iff rest |>.mp restMem).contended.of_valueAt
        · rw [outcome, List.map_flatMap]
          apply List.flatMap_congr
          intro key _
          rw [(reports key).conflicts_eq, List.map_map]
          rfl

/-! ## Pointers -/

/-- A letter of a pointer, with its escape. -/
def escapedLetter (letter : Char) : List Char :=
  if letter = '~' then ['~', '0'] else if letter = '/' then ['~', '1'] else [letter]

/-- A letter after the first of the two replacements that decode a pointer. -/
def halfEscapedLetter (letter : Char) : List Char :=
  if letter = '~' then ['~', '0'] else [letter]

theorem escapePointer_toList (key : String) :
    (escapePointer key).toList = key.toList.flatMap escapedLetter := by
  simp only [escapePointer, String.toList_ofList]
  rfl

theorem replacePair_cons_of_ne {first second replacement letter : Char} (other : letter ≠ first)
    (rest : List Char) :
    replacePair first second replacement (letter :: rest) =
      letter :: replacePair first second replacement rest := by
  cases rest with
  | nil => simp [replacePair]
  | cons next rest =>
      rw [replacePair, if_neg]
      exact fun pair => other pair.1

theorem replacePair_escaped (letters : List Char) :
    replacePair '~' '1' '/' (letters.flatMap escapedLetter) =
      letters.flatMap halfEscapedLetter := by
  induction letters with
  | nil => rfl
  | cons letter rest ih =>
      rw [List.flatMap_cons, List.flatMap_cons, ← ih]
      by_cases tilde : letter = '~'
      · subst tilde
        simp [escapedLetter, halfEscapedLetter, replacePair, replacePair_cons_of_ne]
      · by_cases slash : letter = '/'
        · subst slash
          simp [escapedLetter, halfEscapedLetter, replacePair]
        · simp [escapedLetter, halfEscapedLetter, tilde, slash, replacePair_cons_of_ne]

theorem replacePair_halfEscaped (letters : List Char) :
    replacePair '~' '0' '~' (letters.flatMap halfEscapedLetter) = letters := by
  induction letters with
  | nil => rfl
  | cons letter rest ih =>
      rw [List.flatMap_cons]
      by_cases tilde : letter = '~'
      · subst tilde
        simpa [halfEscapedLetter, replacePair] using ih
      · simp [halfEscapedLetter, tilde, replacePair_cons_of_ne, ih]

theorem slash_notMem_escapePointer (key : String) : '/' ∉ (escapePointer key).toList := by
  simp only [escapePointer_toList, List.mem_flatMap, not_exists, not_and]
  intro letter _
  unfold escapedLetter
  split
  · simp
  · split
    · simp
    · rename_i slash
      simpa using Ne.symm slash

theorem pathText_toList (path : String) (parts : List String) :
    (pathText path parts).toList =
      path.toList ++ parts.flatMap fun key => '/' :: (escapePointer key).toList := by
  induction parts generalizing path with
  | nil => simp [pathText]
  | cons key rest ih =>
      have step : pathText path (key :: rest) = pathText (pointer path key) rest := rfl
      rw [step, ih]
      simp [pointer]

/-- A pointer is decoded to its path, except that the one to an empty member of the root is
taken for the one to the root. -/
theorem decodePointer_pathText {parts : List String} (nonempty : parts ≠ [])
    (named : parts ≠ [""]) : decodePointer (pathText "" parts) = parts := by
  have letters := pathText_toList "" parts
  have notRoot : pathText "" parts ≠ "/" := by
    intro isRoot
    rw [isRoot] at letters
    rcases List.exists_cons_of_ne_nil nonempty with ⟨key, rest, rfl⟩
    have tail : [] = (escapePointer key).toList ++
        rest.flatMap fun key => '/' :: (escapePointer key).toList := by
      simpa using letters
    rcases List.append_eq_nil_iff.mp tail.symm with ⟨keyEmpty, restEmpty⟩
    have restNil : rest = [] := by
      cases rest with
      | nil => rfl
      | cons other others => simp at restEmpty
    have keyNil : key = "" := by
      rw [escapePointer_toList] at keyEmpty
      cases keyLetters : key.toList with
      | nil => exact String.toList_eq_nil_iff.mp keyLetters
      | cons letter more =>
          rw [keyLetters, List.flatMap_cons] at keyEmpty
          have : escapedLetter letter = [] := (List.append_eq_nil_iff.mp keyEmpty).1
          unfold escapedLetter at this
          split at this
          · simp at this
          · split at this <;> simp at this
    exact named (by rw [restNil, keyNil])
  have joined : (pathText "" parts).toList =
      List.intercalate ['/'] ([] :: parts.map fun key => (escapePointer key).toList) := by
    rw [letters, intercalate_cons, List.flatMap_map]
    rfl
  rw [decodePointer, if_neg notRoot, joined, List.splitOn_intercalate]
  · rw [List.drop_succ_cons, List.drop_zero, List.map_map]
    apply List.map_id''
    intro key
    simp [escapePointer_toList, replacePair_escaped, replacePair_halfEscaped]
  · intro piece pieceMem
    rcases List.mem_cons.mp pieceMem with rfl | keyMem
    · simp
    · rcases List.mem_map.mp keyMem with ⟨key, _, rfl⟩
      exact slash_notMem_escapePointer key
  · simp

/-! ## Snapshots -/

/-- A snapshot is an object, with names for its members that no object inherits. -/
structure IsSnapshot (snapshot : Json) : Prop where
  object : snapshot.isObject
  named : member (some snapshot) "" = none
  plain : PlainMembers (some snapshot)

/-- The conflicts of a merge of snapshots are at members. -/
theorem ConflictAt.decoded {base : Option Json} {mine theirs : Json} {parts : List String}
    (conflict : ConflictAt base (some mine) (some theirs) parts)
    (baseSnapshot : ∀ snapshot, base = some snapshot → IsSnapshot snapshot)
    (mineSnapshot : IsSnapshot mine) (theirsSnapshot : IsSnapshot theirs) :
    parts ≠ [] ∧ decodePointer (conflictOf (valueAt base parts) (valueAt (some mine) parts)
      (valueAt (some theirs) parts) (pathText "" parts)).path = parts := by
  have isRecord {snapshot : Json} (isSnapshot : IsSnapshot snapshot) :
      (record (some snapshot)).isSome := by
    have object := isSnapshot.object
    cases snapshot with
    | obj members => rfl
    | null | bool | num | str | arr => cases object
  have nonempty : parts ≠ [] := by
    rintro rfl
    apply conflict.undivided
    refine ⟨isRecord mineSnapshot, isRecord theirsSnapshot, ?_⟩
    cases baseEq : base with
    | none => exact Or.inr rfl
    | some snapshot => exact Or.inl (isRecord (baseSnapshot snapshot baseEq))
  have named : parts ≠ [""] := by
    rintro rfl
    apply conflict.contended.apart
    simp [mineSnapshot.named, theirsSnapshot.named]
  have text : pathText "" parts ≠ "" := by
    intro empty
    have letters := pathText_toList "" parts
    rcases List.exists_cons_of_ne_nil nonempty with ⟨key, rest, rfl⟩
    rw [empty] at letters
    simp at letters
  refine ⟨nonempty, ?_⟩
  rw [conflictOf, if_neg text]
  exact decodePointer_pathText nonempty named

/-- Two values merge to a value. -/
theorem threeWay_isSome {base mine theirs : Option Json} (hasMine : mine.isSome)
    (hasTheirs : theirs.isSome) (path : String) : (threeWay base mine theirs path).1.isSome := by
  rcases threeWay_cases base mine theirs path with ⟨merged, settles, outcome⟩ |
    ⟨_, _, outcome⟩ | ⟨_, _, members, outcome, _⟩
  · rw [outcome]
    cases settles with
    | agreed _ | theirsKept _ => exact hasMine
    | mineKept _ => exact hasTheirs
  · rw [outcome]
    exact hasMine
  · rw [outcome]
    rfl

/-! ## A merge with a conflict -/

/-- Members with names of their own, each with a value that has such names. -/
theorem PlainMembers.of_members {members : List (String × Json)}
    (names : ∀ key ∈ members.map Prod.fst, key ∉ inheritedFunctions ∧ key ≠ prototypeName)
    (values : ∀ key, PlainMembers (members.lookup key)) : PlainMembers (some (.obj members)) := by
  intro parts others found
  cases parts with
  | nil =>
      obtain rfl : members = others := by simpa using found
      exact names
  | cons key rest => exact values key rest others found

theorem PlainMembers.of_noRecord {value : Option Json} (noRecord : record value = none) :
    PlainMembers value := by
  intro parts members found
  induction parts generalizing value with
  | nil =>
      rw [valueAt_nil] at found
      rw [found] at noRecord
      cases noRecord
  | cons key rest ih =>
      apply ih _ found
      rw [member, noRecord]
      rfl

theorem shopSnapshot_isSnapshot (spec : String) : IsSnapshot (shopSnapshot spec) where
  object := rfl
  named := rfl
  plain := by
    have names : ∀ key ∈ ["apiDesign", "id", "spec"],
        key ∉ inheritedFunctions ∧ key ≠ prototypeName := by
      decide
    apply PlainMembers.of_members fun key listed => names key (by simp at listed; simp [listed])
    intro key
    rw [lookup_cons_ite]
    split
    · apply PlainMembers.of_members fun key listed => names key (by
        simp at listed
        simp [listed])
      intro key
      rw [lookup_cons_ite, lookup_cons_ite]
      split
      · exact PlainMembers.of_noRecord rfl
      · split
        · exact PlainMembers.of_noRecord rfl
        · exact PlainMembers.of_noRecord rfl
    · exact PlainMembers.of_noRecord rfl

/-- Change the design on `feature` and on `main`. -/
def divergedCommands : List CollaborationCommand :=
  [.commit (shopWorkspace "v1") [shopKey] "Ada" "First design" fun _ => firstDay,
    .createBranch shopKey "feature" firstDay,
    .commit (shopWorkspace "v2") [shopKey] "Ada" "Second design" fun _ => firstDay,
    .checkout (shopWorkspace "v2") shopKey "main",
    .commit (shopWorkspace "v3") [shopKey] "Ada" "Third design" fun _ => firstDay]

def divergedSession : Session :=
  divergedCommands.foldl (runCommand parseDay countedIds) emptySession

/-- The plan that merges `feature` into `main`, with the conflict of the two designs. -/
def divergedPlan : CollaborationMergePlan where
  resourceKey := shopKey
  targetBranch := "main"
  sourceBranch := "feature"
  targetHeadId := "ccc"
  sourceHeadId := "cc"
  baseCommitId := "c"
  mergedSnapshot := shopSnapshot "v3"
  conflicts := [{ path := "/apiDesign/spec", base := some (.str "v1"), mine := some (.str "v3")
                  theirs := some (.str "v2") }]

theorem divergedSession_plan :
    planCollaborationBranchMerge divergedSession.repository shopKey "feature" =
      .ok divergedPlan := by
  decide

theorem divergedSession_snapshots :
    ∀ commit ∈ divergedSession.repository.commits, IsSnapshot commit.snapshot := by
  have snapshots : divergedSession.repository.commits.map CollaborationCommit.snapshot =
      ["v1", "v2", "v3"].map shopSnapshot := by
    decide
  intro commit commitMem
  have listed := List.mem_map_of_mem (f := CollaborationCommit.snapshot) commitMem
  rw [snapshots] at listed
  rcases List.mem_map.mp listed with ⟨spec, _, specEq⟩
  exact specEq ▸ shopSnapshot_isSnapshot spec

/-! ## Plans -/

/-- The snapshot that the sides of a plan have in common. -/
def baseSnapshot (repository : CollaborationRepository) (plan : CollaborationMergePlan) :
    Option Json :=
  (if plan.baseCommitId = "" then none else findCommit repository plan.baseCommitId).map
    CollaborationCommit.snapshot

/-- A plan merges the snapshots of two heads, and reports their conflicts by the pointers to
them. -/
structure MergesHeads (repository : CollaborationRepository) (key sourceBranch : String)
    (plan : CollaborationMergePlan) (mine theirs : Json) (paths : List (List String)) : Prop where
  mineHead : (branchHead repository key (activeCollaborationBranch repository key)).map
    CollaborationCommit.snapshot = some mine
  theirsHead : (branchHead repository key sourceBranch).map CollaborationCommit.snapshot =
    some theirs
  merged : (threeWay (baseSnapshot repository plan) (some mine) (some theirs) "").1 =
    some plan.mergedSnapshot
  reports : ReportsConflicts (baseSnapshot repository plan) (some mine) (some theirs) ""
    plan.conflicts paths
  decoded : ∀ parts ∈ paths, parts ≠ [] ∧
    decodePointer (conflictOf (valueAt (baseSnapshot repository plan) parts)
      (valueAt (some mine) parts) (valueAt (some theirs) parts) (pathText "" parts)).path = parts

theorem planCollaborationBranchMerge_mergesHeads {repository : CollaborationRepository}
    {key sourceBranch : String} {plan : CollaborationMergePlan}
    (snapshots : ∀ commit ∈ repository.commits, IsSnapshot commit.snapshot)
    (planned : planCollaborationBranchMerge repository key sourceBranch = .ok plan) :
    ∃ mine theirs paths, MergesHeads repository key sourceBranch plan mine theirs paths := by
  rcases planCollaborationBranchMerge_cases planned with
    ⟨mine, theirs, mineHead, theirsHead, _, _, _, outcome⟩
  rcases outcome (baseSnapshot repository plan) rfl with ⟨mergedEq, conflictsEq⟩
  rcases threeWay_reportsConflicts (baseSnapshot repository plan) (some mine.snapshot)
    (some theirs.snapshot) "" with ⟨paths, reports⟩
  have mineSnapshot := snapshots mine (findCommit_spec (branchHead_spec mineHead).1).1
  have theirsSnapshot := snapshots theirs (findCommit_spec (branchHead_spec theirsHead).1).1
  have isSome : (threeWay (baseSnapshot repository plan) (some mine.snapshot)
      (some theirs.snapshot) "").1.isSome := threeWay_isSome rfl rfl ""
  refine ⟨mine.snapshot, theirs.snapshot, paths, by rw [mineHead]; rfl, by rw [theirsHead]; rfl,
    ?_, conflictsEq ▸ reports, ?_⟩
  · rcases Option.isSome_iff_exists.mp isSome with ⟨merged, found⟩
    have unfolded : (mergeValue (mergeDepth (some mine.snapshot)) (baseSnapshot repository plan)
      (some mine.snapshot) (some theirs.snapshot) "").1 = some merged := found
    rw [found, mergedEq, unfolded]
    rfl
  · intro parts partsMem
    apply ((reports.mem_iff parts).mp partsMem).decoded _ mineSnapshot theirsSnapshot
    intro snapshot isBase
    rcases Option.map_eq_some_iff.mp isBase with ⟨commit, found, rfl⟩
    split at found
    · simp at found
    · exact snapshots commit (findCommit_spec found).1

section Plans

variable {repository : CollaborationRepository} {key sourceBranch : String}
  {plan : CollaborationMergePlan} {mine theirs : Json} {paths : List (List String)}

theorem MergesHeads.decoded_conflicts
    (merges : MergesHeads repository key sourceBranch plan mine theirs paths) :
    (plan.conflicts.map fun conflict => decodePointer conflict.path) = paths := by
  rw [merges.reports.conflicts_eq, List.map_map]
  apply (List.map_congr_left _).trans (List.map_id _)
  exact fun parts partsMem => (merges.decoded parts partsMem).2

/-- A path that is clear of the reported conflicts is clear of conflicts. -/
theorem MergesHeads.clear
    (merges : MergesHeads repository key sourceBranch plan mine theirs paths) {parts : List String}
    (clear : ∀ conflict ∈ plan.conflicts, ¬ decodePointer conflict.path <+: parts)
    {before : List String} (isPrefix : before <+: parts) :
    ¬ ConflictAt (baseSnapshot repository plan) (some mine) (some theirs) before := by
  intro isConflict
  have listed := (merges.reports.mem_iff before).mpr isConflict
  rw [← merges.decoded_conflicts] at listed
  rcases List.mem_map.mp listed with ⟨conflict, conflictMem, rfl⟩
  exact clear conflict conflictMem isPrefix

/-- A plan has every change that one side made: at a path that no reported conflict is at or
above, the merged snapshot has what the changed side has. -/
theorem planCollaborationBranchMerge_takesChanges
    (snapshots : ∀ commit ∈ repository.commits, IsSnapshot commit.snapshot)
    (planned : planCollaborationBranchMerge repository key sourceBranch = .ok plan)
    {parts : List String}
    (clear : ∀ conflict ∈ plan.conflicts, ¬ decodePointer conflict.path <+: parts) :
    ∃ mine theirs,
      branchHead repository key (activeCollaborationBranch repository key) = some mine ∧
      branchHead repository key sourceBranch = some theirs ∧
      TakesChanges (valueAt (baseSnapshot repository plan) parts)
        (valueAt (some mine.snapshot) parts) (valueAt (some theirs.snapshot) parts)
        (valueAt (some plan.mergedSnapshot) parts) := by
  rcases planCollaborationBranchMerge_mergesHeads snapshots planned with
    ⟨mineSnapshot, theirsSnapshot, paths, merges⟩
  rcases Option.map_eq_some_iff.mp merges.mineHead with ⟨mine, mineHead, rfl⟩
  rcases Option.map_eq_some_iff.mp merges.theirsHead with ⟨theirs, theirsHead, rfl⟩
  refine ⟨mine, theirs, mineHead, theirsHead, ?_⟩
  rw [← merges.merged]
  exact threeWay_takesChanges fun before isPrefix => merges.clear clear isPrefix

/-- The id of the design is the same on both sides. -/
theorem divergedPlan_takesChanges : ∃ mine theirs,
    branchHead divergedSession.repository shopKey
      (activeCollaborationBranch divergedSession.repository shopKey) = some mine ∧
    branchHead divergedSession.repository shopKey "feature" = some theirs ∧
    TakesChanges
      (valueAt (baseSnapshot divergedSession.repository divergedPlan) ["apiDesign", "id"])
      (valueAt (some mine.snapshot) ["apiDesign", "id"])
      (valueAt (some theirs.snapshot) ["apiDesign", "id"])
      (valueAt (some divergedPlan.mergedSnapshot) ["apiDesign", "id"]) :=
  planCollaborationBranchMerge_takesChanges divergedSession_snapshots divergedSession_plan
    (by decide)

/-- A plan reports a conflict exactly at the paths where both sides made different changes that
cannot be merged member by member, each of them once and with the values of all sides. -/
theorem planCollaborationBranchMerge_reportsConflicts
    (snapshots : ∀ commit ∈ repository.commits, IsSnapshot commit.snapshot)
    (planned : planCollaborationBranchMerge repository key sourceBranch = .ok plan) :
    ∃ mine theirs,
      branchHead repository key (activeCollaborationBranch repository key) = some mine ∧
      branchHead repository key sourceBranch = some theirs ∧
      (plan.conflicts.map fun conflict => decodePointer conflict.path).Nodup ∧
      (∀ parts, parts ∈ (plan.conflicts.map fun conflict => decodePointer conflict.path) ↔
        ConflictAt (baseSnapshot repository plan) (some mine.snapshot) (some theirs.snapshot)
          parts) ∧
      ∀ conflict ∈ plan.conflicts,
        conflict.base = valueAt (baseSnapshot repository plan) (decodePointer conflict.path) ∧
        conflict.mine = valueAt (some mine.snapshot) (decodePointer conflict.path) ∧
        conflict.theirs = valueAt (some theirs.snapshot) (decodePointer conflict.path) := by
  rcases planCollaborationBranchMerge_mergesHeads snapshots planned with
    ⟨mineSnapshot, theirsSnapshot, paths, merges⟩
  rcases Option.map_eq_some_iff.mp merges.mineHead with ⟨mine, mineHead, rfl⟩
  rcases Option.map_eq_some_iff.mp merges.theirsHead with ⟨theirs, theirsHead, rfl⟩
  refine ⟨mine, theirs, mineHead, theirsHead, ?_, ?_, ?_⟩
  · rw [merges.decoded_conflicts]
    exact merges.reports.nodup
  · intro parts
    rw [merges.decoded_conflicts]
    exact merges.reports.mem_iff parts
  · intro conflict conflictMem
    rw [merges.reports.conflicts_eq] at conflictMem
    rcases List.mem_map.mp conflictMem with ⟨parts, partsMem, rfl⟩
    rw [(merges.decoded parts partsMem).2]
    exact ⟨rfl, rfl, rfl⟩

theorem divergedPlan_reportsConflicts : ∃ mine theirs,
    branchHead divergedSession.repository shopKey
      (activeCollaborationBranch divergedSession.repository shopKey) = some mine ∧
    branchHead divergedSession.repository shopKey "feature" = some theirs ∧
    (divergedPlan.conflicts.map fun conflict => decodePointer conflict.path).Nodup ∧
    (∀ parts, parts ∈ (divergedPlan.conflicts.map fun conflict => decodePointer conflict.path) ↔
      ConflictAt (baseSnapshot divergedSession.repository divergedPlan) (some mine.snapshot)
        (some theirs.snapshot) parts) ∧
    ∀ conflict ∈ divergedPlan.conflicts,
      conflict.base = valueAt (baseSnapshot divergedSession.repository divergedPlan)
        (decodePointer conflict.path) ∧
      conflict.mine = valueAt (some mine.snapshot) (decodePointer conflict.path) ∧
      conflict.theirs = valueAt (some theirs.snapshot) (decodePointer conflict.path) :=
  planCollaborationBranchMerge_reportsConflicts divergedSession_snapshots divergedSession_plan

end Plans

end Brunomnia.Collaboration
