import Brunomnia.Codegen.Materialize

/-!
# Header records

The entries of a record are in the order in which setting them one by one puts them, so that
setting the entries of a record again makes the same record.
-/

namespace Brunomnia.Codegen

/-! ## Trimming -/

theorem dropWhile_dropWhile {Item : Type} (holds : Item → Bool) (items : List Item) :
    (items.dropWhile holds).dropWhile holds = items.dropWhile holds := by
  induction items with
  | nil => rfl
  | cons item items ih =>
      by_cases itemHolds : holds item = true
      · simp [itemHolds, ih]
      · simp [itemHolds]

theorem trimText_eq_self {text : Text} (start : text.dropWhile isWhiteSpace = text)
    (finish : text.reverse.dropWhile isWhiteSpace = text.reverse) : trimText text = text := by
  rw [trimText, start, finish, List.reverse_reverse]

/-- Text without white space at its start and its end. -/
theorem dropWhile_trimText (text : Text) :
    (trimText text).dropWhile isWhiteSpace = trimText text := by
  unfold trimText
  generalize startEq : text.dropWhile isWhiteSpace = start
  have startTrimmed : start.dropWhile isWhiteSpace = start := by
    rw [← startEq, dropWhile_dropWhile]
  cases start with
  | nil => rfl
  | cons first rest =>
      have notBlank : isWhiteSpace first = false := by
        by_contra blank
        rw [Bool.not_eq_false] at blank
        rw [List.dropWhile_cons_of_pos blank] at startTrimmed
        have shorter := List.length_dropWhile_le isWhiteSpace rest
        rw [startTrimmed, List.length_cons] at shorter
        omega
      have firstKept : (first :: rest).reverse.dropWhile isWhiteSpace =
          rest.reverse.dropWhile isWhiteSpace ++ [first] := by
        rw [List.reverse_cons, List.dropWhile_append]
        split
        case isTrue empty =>
          rw [List.isEmpty_iff] at empty
          simp [empty, notBlank]
        case isFalse => rfl
      rw [firstKept]
      simp [notBlank]

theorem trimText_trimText (text : Text) : trimText (trimText text) = trimText text := by
  apply trimText_eq_self
  · exact dropWhile_trimText text
  · unfold trimText
    rw [List.reverse_reverse, dropWhile_dropWhile]

/-! ## Order of the keys -/

theorem precedes_trans {first second third : Text} (before : precedes first second = true)
    (after : precedes second third = true) : precedes first third = true := by
  unfold precedes at *
  grind

theorem precedes_total {first second : Text} (notBefore : ¬precedes first second = true) :
    precedes second first = true := by
  unfold precedes at *
  grind

def keysOf (entries : List (Text × Text)) : List Text :=
  entries.map Prod.fst

/-- The entries that a record can have: each key once, in order. -/
structure IsRecord (entries : List (Text × Text)) : Prop where
  nodup : (keysOf entries).Nodup
  ordered : entries.Pairwise fun entry later => precedes entry.1 later.1 = true
  noPrototype : "__proto__".toList ∉ keysOf entries

theorem IsRecord.nil : IsRecord [] := ⟨List.nodup_nil, List.Pairwise.nil, by simp [keysOf]⟩

/-- Setting a new key keeps the order. -/
theorem insert_ordered {entries : List (Text × Text)}
    (ordered : entries.Pairwise fun entry later => precedes entry.1 later.1 = true)
    (key value : Text) :
    ((entries.takeWhile fun entry => precedes entry.1 key) ++
      (key, value) :: entries.dropWhile fun entry => precedes entry.1 key).Pairwise
        fun entry later => precedes entry.1 later.1 = true := by
  induction entries with
  | nil => simp
  | cons head entries ih =>
      rw [List.pairwise_cons] at ordered
      by_cases before : precedes head.1 key = true
      · simp only [List.takeWhile_cons, List.dropWhile_cons, before, if_true, List.cons_append,
          List.pairwise_cons]
        refine ⟨?_, ih ordered.2⟩
        intro other otherMem
        have others := (List.perm_middle.mem_iff).mp otherMem
        rw [List.takeWhile_append_dropWhile] at others
        rcases List.mem_cons.mp others with rfl | otherMem
        · exact before
        · exact ordered.1 other otherMem
      · simp only [List.takeWhile_cons, List.dropWhile_cons, before, if_false, List.nil_append,
          Bool.false_eq_true]
        rw [List.pairwise_cons]
        have keyFirst := precedes_total before
        refine ⟨?_, List.pairwise_cons.mpr ordered⟩
        intro other otherMem
        rcases List.mem_cons.mp otherMem with rfl | otherMem
        · exact keyFirst
        · exact precedes_trans keyFirst (ordered.1 other otherMem)

theorem recordSet_new {entries : List (Text × Text)} {key value : Text}
    (notPrototype : key ≠ "__proto__".toList) (fresh : key ∉ keysOf entries) :
    recordSet entries key value =
      (entries.takeWhile fun entry => precedes entry.1 key) ++
        (key, value) :: entries.dropWhile fun entry => precedes entry.1 key := by
  unfold keysOf at fresh
  unfold recordSet
  rw [if_neg notPrototype, if_neg fresh]

theorem recordSet_new_perm {entries : List (Text × Text)} {key : Text} (value : Text)
    (notPrototype : key ≠ "__proto__".toList) (fresh : key ∉ keysOf entries) :
    (recordSet entries key value).Perm ((key, value) :: entries) := by
  rw [recordSet_new notPrototype fresh]
  refine List.perm_middle.trans ?_
  rw [List.takeWhile_append_dropWhile]

theorem recordSet_old {entries : List (Text × Text)} {key : Text} (value : Text)
    (notPrototype : key ≠ "__proto__".toList) (old : key ∈ keysOf entries) :
    recordSet entries key value =
      entries.map fun entry => if entry.1 = key then (key, value) else entry := by
  unfold keysOf at old
  unfold recordSet
  rw [if_neg notPrototype, if_pos old]

theorem keysOf_replace (entries : List (Text × Text)) (key value : Text) :
    keysOf (entries.map fun entry => if entry.1 = key then (key, value) else entry) =
      keysOf entries := by
  unfold keysOf
  rw [List.map_map]
  apply List.map_congr_left
  intro entry _
  by_cases sameKey : entry.1 = key <;> simp [sameKey]

theorem recordSet_prototype (entries : List (Text × Text)) (value : Text) :
    recordSet entries "__proto__".toList value = entries := by
  unfold recordSet
  rw [if_pos rfl]

theorem ordered_of_keys {entries others : List (Text × Text)}
    (sameKeys : keysOf entries = keysOf others)
    (ordered : others.Pairwise fun entry later => precedes entry.1 later.1 = true) :
    entries.Pairwise fun entry later => precedes entry.1 later.1 = true := by
  have onKeys : ∀ list : List (Text × Text),
      (list.Pairwise fun entry later => precedes entry.1 later.1 = true) ↔
        (keysOf list).Pairwise fun key later => precedes key later = true :=
    fun list => by rw [keysOf, List.pairwise_map]
  rw [onKeys, sameKeys, ← onKeys]
  exact ordered

theorem IsRecord.set {entries : List (Text × Text)} (record : IsRecord entries)
    (key value : Text) : IsRecord (recordSet entries key value) := by
  by_cases isPrototype : key = "__proto__".toList
  · rw [isPrototype, recordSet_prototype]
    exact record
  · by_cases old : key ∈ keysOf entries
    · rw [recordSet_old value isPrototype old]
      refine ⟨?_, ordered_of_keys (keysOf_replace entries key value) record.ordered, ?_⟩
      · rw [keysOf_replace]
        exact record.nodup
      · rw [keysOf_replace]
        exact record.noPrototype
    · have keysPerm : (keysOf (recordSet entries key value)).Perm (key :: keysOf entries) :=
        (recordSet_new_perm value isPrototype old).map Prod.fst
      refine ⟨?_, ?_, ?_⟩
      · rw [keysPerm.nodup_iff, List.nodup_cons]
        exact ⟨old, record.nodup⟩
      · rw [recordSet_new isPrototype old]
        exact insert_ordered record.ordered key value
      · rw [keysPerm.mem_iff, List.mem_cons, not_or]
        exact ⟨Ne.symm isPrototype, record.noPrototype⟩

theorem IsRecord.sublist {entries others : List (Text × Text)} (record : IsRecord entries)
    (sublist : others.Sublist entries) : IsRecord others where
  nodup := record.nodup.sublist (sublist.map _)
  ordered := record.ordered.sublist sublist
  noPrototype isKey := record.noPrototype ((sublist.map _).subset isKey)

/-! ## Setting many entries -/

/-- Set entries one after the other. -/
def setAll (entries added : List (Text × Text)) : List (Text × Text) :=
  added.foldl (fun entries entry => recordSet entries entry.1 entry.2) entries

theorem IsRecord.setAll {entries : List (Text × Text)} (record : IsRecord entries)
    (added : List (Text × Text)) : IsRecord (setAll entries added) := by
  induction added generalizing entries with
  | nil => exact record
  | cons entry added ih => exact ih (record.set entry.1 entry.2)

theorem setAll_of_isRecord {entries added : List (Text × Text)}
    (record : IsRecord (entries ++ added)) : setAll entries added = entries ++ added := by
  induction added generalizing entries with
  | nil => simp [setAll]
  | cons entry added ih =>
      have atEnd : recordSet entries entry.1 entry.2 = entries ++ [entry] := by
        have before : ∀ other ∈ entries, precedes other.1 entry.1 = true := by
          intro other otherMem
          exact (List.pairwise_append.mp record.ordered).2.2 other otherMem entry (by simp)
        have fresh : entry.1 ∉ keysOf entries := by
          have nodup := record.nodup
          unfold keysOf at nodup
          rw [List.map_append] at nodup
          exact fun isKey => List.disjoint_of_nodup_append nodup isKey (by simp)
        have notPrototype : entry.1 ≠ "__proto__".toList := by
          intro isPrototype
          exact record.noPrototype (by simp [keysOf, ← isPrototype])
        rw [recordSet_new notPrototype fresh, List.takeWhile_eq_self_iff.mpr before,
          List.dropWhile_eq_nil_iff.mpr before]
      have rest := @ih (entries ++ [entry]) (by simpa using record)
      rw [setAll, List.foldl_cons, atEnd]
      simpa [setAll] using rest

theorem mem_keysOf_recordSet {entries : List (Text × Text)} {key value other : Text} :
    other ∈ keysOf (recordSet entries key value) ↔
      other ∈ keysOf entries ∨ (other = key ∧ key ≠ "__proto__".toList) := by
  by_cases isPrototype : key = "__proto__".toList
  · rw [isPrototype, recordSet_prototype]
    simp
  · by_cases old : key ∈ keysOf entries
    · rw [recordSet_old value isPrototype old, keysOf_replace]
      refine ⟨Or.inl, ?_⟩
      rintro (isKey | ⟨rfl, _⟩)
      · exact isKey
      · exact old
    · have keysPerm : (keysOf (recordSet entries key value)).Perm (key :: keysOf entries) :=
        (recordSet_new_perm value isPrototype old).map Prod.fst
      rw [keysPerm.mem_iff, List.mem_cons]
      tauto

theorem mem_keysOf_setAll {entries added : List (Text × Text)} {key : Text} :
    key ∈ keysOf (setAll entries added) ↔
      key ∈ keysOf entries ∨ (key ∈ keysOf added ∧ key ≠ "__proto__".toList) := by
  induction added generalizing entries with
  | nil => simp [setAll, keysOf]
  | cons entry added ih =>
      have step : setAll entries (entry :: added) =
          setAll (recordSet entries entry.1 entry.2) added := rfl
      rw [step, ih, mem_keysOf_recordSet]
      simp only [keysOf, List.map_cons, List.mem_cons]
      constructor
      · rintro ((old | ⟨rfl, notPrototype⟩) | later)
        · exact Or.inl old
        · exact Or.inr ⟨Or.inl rfl, notPrototype⟩
        · exact Or.inr ⟨Or.inr later.1, later.2⟩
      · rintro (old | ⟨rfl | later, notPrototype⟩)
        · exact Or.inl (Or.inl old)
        · exact Or.inl (Or.inr ⟨rfl, notPrototype⟩)
        · exact Or.inr ⟨later, notPrototype⟩

theorem mem_recordSet (entries : List (Text × Text)) {key : Text} (value : Text)
    (notPrototype : key ≠ "__proto__".toList) : (key, value) ∈ recordSet entries key value := by
  by_cases old : key ∈ keysOf entries
  · rw [recordSet_old value notPrototype old, List.mem_map]
    obtain ⟨entry, entryMem, rfl⟩ := List.mem_map.mp old
    exact ⟨entry, entryMem, if_pos rfl⟩
  · rw [(recordSet_new_perm value notPrototype old).mem_iff]
    exact List.mem_cons_self

/-! ## Records with all their entries -/

def isNamed (entry : Text × Text) : Bool :=
  (arrayIndex entry.1).isNone

theorem takeWhile_append_cons_dropWhile_filter {entries : List (Text × Text)}
    (key value : Text) (isIndex : isNamed (key, value) = false) :
    ((entries.takeWhile fun entry => precedes entry.1 key) ++
      (key, value) :: entries.dropWhile fun entry => precedes entry.1 key).filter isNamed =
        entries.filter isNamed := by
  rw [List.filter_append, List.filter_cons_of_neg (by simp [isIndex]), ← List.filter_append,
    List.takeWhile_append_dropWhile]

theorem precedes_of_isNamed {key value : Text} (named : isNamed (key, value) = true)
    (other : Text) : precedes other key = true := by
  have noIndex : arrayIndex key = none := by simpa [isNamed] using named
  unfold precedes
  rw [noIndex]
  cases arrayIndex other <;> rfl

theorem filter_recordSet_new {entries : List (Text × Text)} {entry : Text × Text}
    (notPrototype : entry.1 ≠ "__proto__".toList) (fresh : entry.1 ∉ keysOf entries) :
    (recordSet entries entry.1 entry.2).filter isNamed =
      entries.filter isNamed ++ [entry].filter isNamed := by
  rw [recordSet_new notPrototype fresh]
  by_cases named : isNamed entry = true
  · have allBefore : ∀ other ∈ entries, precedes other.1 entry.1 = true :=
      fun other _ => precedes_of_isNamed named other.1
    rw [List.takeWhile_eq_self_iff.mpr allBefore, List.dropWhile_eq_nil_iff.mpr allBefore,
      List.filter_append]
  · rw [Bool.not_eq_true] at named
    rw [takeWhile_append_cons_dropWhile_filter _ _ named]
    simp [named]

theorem length_recordSet_le (entries : List (Text × Text)) (key value : Text) :
    (recordSet entries key value).length ≤ entries.length + 1 := by
  by_cases isPrototype : key = "__proto__".toList
  · rw [isPrototype, recordSet_prototype]
    omega
  · by_cases old : key ∈ keysOf entries
    · rw [recordSet_old value isPrototype old, List.length_map]
      omega
    · rw [(recordSet_new_perm value isPrototype old).length_eq, List.length_cons]

theorem length_setAll_le (entries added : List (Text × Text)) :
    (setAll entries added).length ≤ entries.length + added.length := by
  induction added generalizing entries with
  | nil => simp [setAll]
  | cons entry added ih =>
      have step : setAll entries (entry :: added) =
          setAll (recordSet entries entry.1 entry.2) added := rfl
      have first := length_recordSet_le entries entry.1 entry.2
      have others := ih (recordSet entries entry.1 entry.2)
      rw [step, List.length_cons]
      omega

theorem new_of_length {entries : List (Text × Text)} {key value : Text}
    (longer : (recordSet entries key value).length = entries.length + 1) :
    key ≠ "__proto__".toList ∧ key ∉ keysOf entries := by
  refine ⟨?_, ?_⟩
  · rintro rfl
    rw [recordSet_prototype] at longer
    omega
  · intro old
    by_cases isPrototype : key = "__proto__".toList
    · rw [isPrototype, recordSet_prototype] at longer
      omega
    · rw [recordSet_old value isPrototype old, List.length_map] at longer
      omega

theorem setAll_of_length {entries added : List (Text × Text)}
    (full : (setAll entries added).length = entries.length + added.length) :
    (setAll entries added).Perm (entries ++ added) ∧
      (setAll entries added).filter isNamed = (entries ++ added).filter isNamed := by
  induction added generalizing entries with
  | nil => simp [setAll]
  | cons entry added ih =>
      have step : setAll entries (entry :: added) =
          setAll (recordSet entries entry.1 entry.2) added := rfl
      have first := length_recordSet_le entries entry.1 entry.2
      have others := length_setAll_le (recordSet entries entry.1 entry.2) added
      rw [step, List.length_cons] at full
      obtain ⟨notPrototype, fresh⟩ := new_of_length
        (show (recordSet entries entry.1 entry.2).length = entries.length + 1 by omega)
      obtain ⟨perm, filtered⟩ := ih
        (show (setAll (recordSet entries entry.1 entry.2) added).length =
          (recordSet entries entry.1 entry.2).length + added.length by omega)
      rw [step]
      refine ⟨?_, ?_⟩
      · refine perm.trans ?_
        refine ((recordSet_new_perm entry.2 notPrototype fresh).append_right added).trans ?_
        exact List.perm_middle.symm
      · rw [filtered, List.filter_append, filter_recordSet_new notPrototype fresh,
          List.append_assoc, ← List.filter_append, ← List.filter_append]
        rfl

end Brunomnia.Codegen
