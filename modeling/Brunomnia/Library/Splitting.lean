import Mathlib

/-!
# Finding and splitting

The first place at which a pattern occurs in a list, as a search of a buffer finds it,
and the pieces of a list that end in a separator. An occurrence stays where it is when
the list grows at its end.
-/

namespace Brunomnia.Library

universe u v

variable {Item : Type u}

/-- A pattern starts at an index of a list. -/
def OccursAt (pattern items : List Item) (index : ℕ) : Prop :=
  pattern <+: items.drop index

theorem OccursAt.append {pattern items : List Item} {index : ℕ}
    (occurs : OccursAt pattern items index) (more : List Item) :
    OccursAt pattern (items ++ more) index := by
  unfold OccursAt at occurs ⊢
  rw [List.drop_append]
  exact occurs.trans (List.prefix_append _ _)

theorem OccursAt.end_le {pattern items : List Item} {index : ℕ} (nonempty : pattern ≠ [])
    (occurs : OccursAt pattern items index) : index + pattern.length ≤ items.length := by
  have fits := occurs.length_le
  have positive := List.length_pos_of_ne_nil nonempty
  rw [List.length_drop] at fits
  omega

theorem OccursAt.of_append {pattern items more : List Item} {index : ℕ}
    (occurs : OccursAt pattern (items ++ more) index)
    (within : index + pattern.length ≤ items.length) : OccursAt pattern items index := by
  unfold OccursAt at occurs ⊢
  rw [List.drop_append_of_le_length (by omega)] at occurs
  apply List.prefix_of_prefix_length_le occurs (List.prefix_append _ _)
  rw [List.length_drop]
  omega

theorem occursAt_drop {pattern items : List Item} {start index : ℕ} :
    OccursAt pattern (items.drop start) index ↔ OccursAt pattern items (start + index) := by
  unfold OccursAt
  rw [List.drop_drop]

theorem occursAt_append_length {pattern before more : List Item} :
    OccursAt pattern (before ++ (pattern ++ more)) before.length := by
  unfold OccursAt
  rw [List.drop_left]
  exact List.prefix_append _ _

/-- A pattern does not reach over an item that it does not have. -/
theorem infix_of_append_cons {pattern before after : List Item} {item : Item}
    (notMem : item ∉ pattern) (isInfix : pattern <:+: before ++ item :: after) :
    pattern <:+: before ∨ pattern <:+: after := by
  rcases isInfix with ⟨front, back, eq⟩
  rw [List.append_assoc] at eq
  rcases List.append_eq_append_iff.mp eq with ⟨middle, rfl, rest⟩ | ⟨middle, rfl, rest⟩
  · rcases List.append_eq_append_iff.mp rest with ⟨more, rfl, _⟩ | ⟨more, rfl, tail⟩
    · left
      exact ⟨front, more, List.append_assoc _ _ _⟩
    · cases more with
      | nil =>
          left
          exact ⟨front, [], by simp⟩
      | cons first more =>
          rw [List.cons_append, List.cons.injEq] at tail
          exact absurd (by simp [tail.1]) notMem
  · cases middle with
    | nil =>
        cases pattern with
        | nil => exact .inl (List.nil_infix)
        | cons first pattern =>
            rw [List.nil_append, List.cons_append, List.cons.injEq] at rest
            exact absurd (by simp [rest.1]) notMem
    | cons first middle =>
        rw [List.cons_append, List.cons.injEq] at rest
        right
        exact ⟨middle, back, by rw [rest.2, List.append_assoc]⟩

section Position

variable [DecidableEq Item]

/-- The first index at which a pattern occurs. -/
def position (pattern : List Item) : List Item → Option ℕ
  | [] => none
  | item :: rest =>
      if pattern <+: item :: rest then some 0 else (position pattern rest).map (· + 1)

variable {pattern : List Item}

theorem position_eq_none_iff (nonempty : pattern ≠ []) {items : List Item} :
    position pattern items = none ↔ ∀ index, ¬OccursAt pattern items index := by
  induction items with
  | nil =>
      simp [position, OccursAt, nonempty]
  | cons item rest ih =>
      unfold position
      split
      case isTrue here =>
        refine iff_of_false (by simp) ?_
        intro never
        exact never 0 here
      case isFalse notHere =>
        rw [Option.map_eq_none_iff, ih]
        constructor
        · intro never index
          cases index with
          | zero => exact notHere
          | succ index => exact never index
        · exact fun never index => never (index + 1)

theorem position_eq_some_iff (nonempty : pattern ≠ []) {items : List Item} {index : ℕ} :
    position pattern items = some index ↔
      OccursAt pattern items index ∧ ∀ earlier < index, ¬OccursAt pattern items earlier := by
  induction items generalizing index with
  | nil => simp [position, OccursAt, nonempty]
  | cons item rest ih =>
      unfold position
      split
      case isTrue here =>
        rw [Option.some.injEq]
        constructor
        · rintro rfl
          exact ⟨here, by simp⟩
        · rintro ⟨_, first⟩
          by_contra later
          exact first 0 (by omega) here
      case isFalse notHere =>
        cases index with
        | zero => simpa [OccursAt] using notHere
        | succ index =>
            simp only [Option.map_eq_some_iff, Nat.add_right_cancel_iff, exists_eq_right]
            rw [ih]
            constructor
            · rintro ⟨occurs, first⟩
              refine ⟨occurs, ?_⟩
              intro earlier before
              cases earlier with
              | zero => exact notHere
              | succ earlier => exact first earlier (by omega)
            · rintro ⟨occurs, first⟩
              exact ⟨occurs, fun earlier before => first (earlier + 1) (by omega)⟩

theorem position_append (nonempty : pattern ≠ []) {items : List Item} {index : ℕ}
    (found : position pattern items = some index) (more : List Item) :
    position pattern (items ++ more) = some index := by
  rw [position_eq_some_iff nonempty] at found ⊢
  refine ⟨found.1.append more, ?_⟩
  intro earlier before occurs
  have fits := found.1.end_le nonempty
  exact found.2 earlier before (occurs.of_append (by omega))

theorem position_append_of_not_infix (nonempty : pattern ≠ []) {items : List Item}
    (ends : ∀ item, items.getLast? = some item → item ∉ pattern)
    (apart : ¬pattern <:+: items) (more : List Item) :
    position pattern (items ++ (pattern ++ more)) = some items.length := by
  rw [position_eq_some_iff nonempty]
  refine ⟨occursAt_append_length, ?_⟩
  intro earlier before occurs
  have reaches : items.length < earlier + pattern.length := by
    by_contra within
    have inItems := occurs.of_append (not_lt.mp within)
    exact apart (inItems.isInfix.trans (List.drop_suffix earlier items).isInfix)
  have inPattern : items.length - 1 - earlier < pattern.length := by omega
  have last := List.prefix_iff_getElem?.mp occurs _ inPattern
  rw [List.getElem?_drop, Nat.add_sub_cancel' (by omega), List.getElem?_append_left (by omega)]
    at last
  rw [← List.getLast?_eq_getElem?] at last
  exact ends _ last (List.getElem_mem inPattern)

theorem position_append_of_notMem {first : Item} {tail before : List Item}
    (notMem : first ∉ before) (more : List Item) :
    position (first :: tail) (before ++ more) =
      (position (first :: tail) more).map (· + before.length) := by
  induction before with
  | nil => simp
  | cons item before ih =>
      rw [List.mem_cons, not_or] at notMem
      have apart : ¬first :: tail <+: item :: (before ++ more) := by
        intro isPrefix
        exact notMem.1 (List.cons_prefix_cons.mp isPrefix).1
      rw [List.cons_append, position, if_neg apart, ih notMem.2, Option.map_map]
      rfl

end Position

/-! ## Pieces that end in a separator -/

section Split

variable [DecidableEq Item]

/-- The pieces in front of the separators, and what follows the last one. -/
def splitEnds (separator : Item) : List Item → List (List Item) × List Item
  | [] => ([], [])
  | item :: rest =>
      let (pieces, remainder) := splitEnds separator rest
      if item = separator then ([] :: pieces, remainder)
      else
        match pieces with
        | [] => ([], item :: remainder)
        | piece :: pieces => ((item :: piece) :: pieces, remainder)

variable {separator : Item}

attribute [local simp] splitEnds

theorem splitEnds_of_notMem {items : List Item} (notMem : separator ∉ items) :
    splitEnds separator items = ([], items) := by
  induction items with
  | nil => rfl
  | cons item rest ih =>
      rw [List.mem_cons, not_or] at notMem
      simp [splitEnds, ih notMem.2, Ne.symm notMem.1]

theorem splitEnds_append (first rest : List Item) :
    splitEnds separator (first ++ separator :: rest) =
      ((splitEnds separator first).1 ++ (splitEnds separator first).2 ::
        (splitEnds separator rest).1, (splitEnds separator rest).2) := by
  induction first with
  | nil => simp [splitEnds]
  | cons item first ih =>
      rw [List.cons_append, splitEnds, splitEnds, ih]
      generalize splitEnds separator first = split
      rcases split with ⟨pieces, remainder⟩
      cases pieces with
      | nil => by_cases isSeparator : item = separator <;> simp [isSeparator]
      | cons piece pieces => by_cases isSeparator : item = separator <;> simp [isSeparator]

theorem splitEnds_snoc {item : Item} (other : item ≠ separator) (items : List Item) :
    splitEnds separator (items ++ [item]) =
      ((splitEnds separator items).1, (splitEnds separator items).2 ++ [item]) := by
  induction items with
  | nil => simp [splitEnds, other]
  | cons head items ih =>
      rw [List.cons_append, splitEnds, splitEnds, ih]
      generalize splitEnds separator items = split
      rcases split with ⟨pieces, remainder⟩
      cases pieces with
      | nil => by_cases isSeparator : head = separator <;> simp [isSeparator]
      | cons piece pieces => by_cases isSeparator : head = separator <;> simp [isSeparator]

theorem splitEnds_join (items : List Item) :
    (splitEnds separator items).1.flatMap (· ++ [separator]) ++ (splitEnds separator items).2 =
      items := by
  induction items with
  | nil => rfl
  | cons item items ih =>
      rw [splitEnds]
      generalize splitEnds separator items = split at ih ⊢
      rcases split with ⟨pieces, remainder⟩
      by_cases isSeparator : item = separator
      · simpa [isSeparator] using ih
      · cases pieces with
        | nil => simpa [isSeparator] using ih
        | cons piece pieces => simpa [isSeparator] using ih

theorem notMem_splitEnds_remainder (items : List Item) :
    separator ∉ (splitEnds separator items).2 := by
  induction items with
  | nil => simp [splitEnds]
  | cons item items ih =>
      rw [splitEnds]
      generalize splitEnds separator items = split at ih ⊢
      rcases split with ⟨pieces, remainder⟩
      by_cases isSeparator : item = separator
      · simpa [isSeparator] using ih
      · cases pieces with
        | nil => simpa [isSeparator, Ne.symm isSeparator] using ih
        | cons piece pieces => simpa [isSeparator] using ih

theorem splitEnds_remainder_eq_nil_iff {items : List Item} :
    (splitEnds separator items).2 = [] ↔ items = [] ∨ items.getLast? = some separator := by
  rcases List.eq_nil_or_concat items with rfl | ⟨init, last, rfl⟩
  · simp [splitEnds]
  · by_cases isSeparator : last = separator
    · subst isSeparator
      have atEnd := @splitEnds_append _ _ last init []
      simp [atEnd, splitEnds]
    · simp [splitEnds_snoc isSeparator, isSeparator]

end Split

end Brunomnia.Library

/-!
## Words

The words of a text are its longest parts without blanks. A blank between two texts keeps their
words apart.
-/

namespace Brunomnia.Library

universe u

variable {Item : Type u} {isBlank : Item → Bool}

def words (isBlank : Item → Bool) (text : List Item) : List (List Item) :=
  (text.splitOnP isBlank).filter (· ≠ [])

def IsWord (isBlank : Item → Bool) (word : List Item) : Prop :=
  word ≠ [] ∧ ∀ item ∈ word, isBlank item = false

@[simp]
theorem words_nil : words isBlank [] = [] := rfl

theorem words_append_cons (front : List Item) {blank : Item} (isBlank' : isBlank blank = true)
    (rest : List Item) :
    words isBlank (front ++ blank :: rest) = words isBlank front ++ words isBlank rest := by
  rw [words, List.splitOnP_append_cons _ _ isBlank', List.filter_append]
  rfl

theorem words_cons {blank : Item} (isBlank' : isBlank blank = true) (rest : List Item) :
    words isBlank (blank :: rest) = words isBlank rest :=
  words_append_cons [] isBlank' rest

theorem words_eq_singleton {word : List Item} (isWord : IsWord isBlank word) :
    words isBlank word = [word] := by
  rw [words, List.splitOnP_eq_singleton isWord.2, List.filter_cons_of_pos (by simp [isWord.1]),
    List.filter_nil]

theorem words_append {word rest : List Item} (isWord : IsWord isBlank word)
    (ends : ∀ item ∈ rest.head?, isBlank item = true) :
    words isBlank (word ++ rest) = word :: words isBlank rest := by
  cases rest with
  | nil => rw [List.append_nil, words_eq_singleton isWord, words_nil]
  | cons blank rest =>
      have blankFirst : isBlank blank = true := ends blank rfl
      rw [words_append_cons word blankFirst, words_cons blankFirst, words_eq_singleton isWord]
      rfl

/-- The first word stands behind blanks, and ends with the text or in front of a blank. -/
theorem words_eq_cons_iff {text word : List Item} {more : List (List Item)} :
    words isBlank text = word :: more ↔
      ∃ lead rest, text = lead ++ (word ++ rest) ∧ (∀ item ∈ lead, isBlank item = true) ∧
        IsWord isBlank word ∧ (∀ item ∈ rest.head?, isBlank item = true) ∧
        words isBlank rest = more := by
  constructor
  · intro split
    induction text with
    | nil => cases split
    | cons first text ih =>
        cases blankFirst : isBlank first with
        | true =>
            rw [words_cons blankFirst] at split
            rcases ih split with ⟨lead, rest, rfl, blanks, holds⟩
            exact ⟨first :: lead, rest, rfl, List.forall_mem_cons.mpr ⟨blankFirst, blanks⟩, holds⟩
        | false =>
            have whole := @List.takeWhile_append_dropWhile _ (fun item => !isBlank item)
              (first :: text)
            have isWord : IsWord isBlank ((first :: text).takeWhile fun item => !isBlank item) := by
              refine ⟨by simp [blankFirst], fun item itemMem => ?_⟩
              simpa using List.mem_takeWhile_imp itemMem
            have ends : ∀ item ∈ ((first :: text).dropWhile fun item => !isBlank item).head?,
                isBlank item = true := by
              intro item isFirst
              have dropped := List.head?_dropWhile_not (fun item => !isBlank item) (first :: text)
              rw [Option.mem_def.mp isFirst] at dropped
              simpa using dropped
            rw [← whole, words_append isWord ends, List.cons.injEq] at split
            exact ⟨[], _, by rw [List.nil_append, ← split.1, whole], by simp, split.1 ▸ isWord,
              ends, split.2⟩
  · rintro ⟨lead, rest, rfl, blanks, isWord, ends, rfl⟩
    induction lead with
    | nil => exact words_append isWord ends
    | cons first lead ih =>
        rw [List.forall_mem_cons] at blanks
        rw [List.cons_append, words_cons blanks.1, ih blanks.2]

theorem words_intercalate {blank : Item} (isBlank' : isBlank blank = true)
    (texts : List (List Item)) :
    words isBlank (List.intercalate [blank] texts) = texts.flatMap (words isBlank) := by
  induction texts with
  | nil => rfl
  | cons text texts ih =>
      cases texts with
      | nil => simp [List.intercalate]
      | cons next texts =>
          rw [List.intercalate_cons_cons, List.append_assoc, List.singleton_append,
            words_append_cons text isBlank', ih]
          rfl

end Brunomnia.Library
