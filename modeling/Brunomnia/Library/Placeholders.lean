import Mathlib

/-!
# Placeholders

Names between an opening and a closing delimiter, neither of which they contain. Two placeholders
never overlap, so the occurrences of one of them can be counted piece by piece, and replacing them
one name after the other replaces them all at once, unless replacing one makes another.
-/

namespace Brunomnia.Library

universe u

structure Delimiters (Item : Type u) where
  opening : Item
  closing : Item
  distinct : opening ≠ closing

/-- An item, or a name between delimiters. -/
inductive Piece (Item : Type u) where
  | item (value : Item)
  | named (name : List Item)
  deriving DecidableEq

variable {Item : Type u} [DecidableEq Item]

/-- Replaces a pattern; `skipped` items still belong to its last occurrence. -/
def replaceEach (pattern value : List Item) : ℕ → List Item → List Item
  | _, [] => []
  | skipped + 1, _ :: rest => replaceEach pattern value skipped rest
  | 0, item :: rest =>
      if pattern <+: item :: rest then
        value ++ replaceEach pattern value (pattern.length - 1) rest
      else item :: replaceEach pattern value 0 rest

/-- How often a pattern occurs. -/
def occurrences (pattern : List Item) : List Item → ℕ
  | [] => 0
  | item :: rest => (if pattern <+: item :: rest then 1 else 0) + occurrences pattern rest

namespace Delimiters

variable (delimiters : Delimiters Item)

def placeholder (name : List Item) : List Item :=
  delimiters.opening :: (name ++ [delimiters.closing])

def IsName (name : List Item) : Prop :=
  delimiters.opening ∉ name ∧ delimiters.closing ∉ name

/-- The name of the placeholder that a list starts with. -/
def nameAt : List Item → Option (List Item)
  | [] => none
  | item :: rest =>
      let name := rest.takeWhile fun other =>
        other ≠ delimiters.opening ∧ other ≠ delimiters.closing
      if item = delimiters.opening ∧ (rest.drop name.length).head? = some delimiters.closing then
        some name
      else none

/-- The pieces of a list; `skipped` items still belong to the last placeholder. -/
def piecesAfter : ℕ → List Item → List (Piece Item)
  | _, [] => []
  | skipped + 1, _ :: rest => piecesAfter skipped rest
  | 0, item :: rest =>
      match delimiters.nameAt (item :: rest) with
      | some name => .named name :: piecesAfter (name.length + 1) rest
      | none => .item item :: piecesAfter 0 rest

def pieces (items : List Item) : List (Piece Item) :=
  delimiters.piecesAfter 0 items

def pieceItems (valueOf : List Item → Option (List Item)) : Piece Item → List Item
  | .item value => [value]
  | .named name => (valueOf name).getD (delimiters.placeholder name)

/-- The pieces with values in place of the names that have one. -/
def render (valueOf : List Item → Option (List Item)) (pieces : List (Piece Item)) : List Item :=
  pieces.flatMap (delimiters.pieceItems valueOf)

end Delimiters

/-! ## Occurrences -/

section Occurrences

variable {pattern : List Item}

theorem occurrences_append_le (before after : List Item) :
    occurrences pattern before + occurrences pattern after ≤
      occurrences pattern (before ++ after) := by
  induction before with
  | nil => simp [occurrences]
  | cons item before ih =>
      rw [List.cons_append, occurrences, occurrences]
      by_cases here : pattern <+: item :: before
      · have still : pattern <+: item :: (before ++ after) :=
          here.trans (List.prefix_append _ _)
        rw [if_pos here, if_pos still]
        omega
      · rw [if_neg here]
        omega

theorem replaceEach_of_occurrences_eq_zero (value : List Item) {items : List Item}
    (none : occurrences pattern items = 0) : replaceEach pattern value 0 items = items := by
  induction items with
  | nil => rfl
  | cons item items ih =>
      rw [occurrences, Nat.add_eq_zero_iff] at none
      have notHere : ¬ pattern <+: item :: items := by
        intro here
        rw [if_pos here] at none
        omega
      rw [replaceEach, if_neg notHere, ih none.2]

theorem replaceEach_skip (value skipped items : List Item) :
    replaceEach pattern value skipped.length (skipped ++ items) =
      replaceEach pattern value 0 items := by
  induction skipped with
  | nil => rfl
  | cons item skipped ih => rw [List.length_cons, List.cons_append, replaceEach, ih]

end Occurrences

namespace Delimiters

variable {delimiters : Delimiters Item} {name other : List Item}

omit [DecidableEq Item] in
theorem prefix_append_opening_iff {before after : List Item} (isName : delimiters.IsName name)
    (someBefore : before ≠ []) :
    delimiters.placeholder name <+: before ++ delimiters.opening :: after ↔
      delimiters.placeholder name <+: before := by
  refine ⟨?_, fun here => here.trans (List.prefix_append _ _)⟩
  rintro ⟨rest, eq⟩
  rcases List.append_eq_append_iff.mp eq with ⟨middle, rfl, _⟩ | ⟨middle, eqPlaceholder, eqRest⟩
  · exact List.prefix_append _ _
  · cases middle with
    | nil =>
        rw [List.append_nil] at eqPlaceholder
        rw [eqPlaceholder]
    | cons item middle =>
        rw [List.cons_append, List.cons.injEq] at eqRest
        cases before with
        | nil => exact absurd rfl someBefore
        | cons first before =>
            rw [placeholder, List.cons_append, List.cons.injEq] at eqPlaceholder
            have openingMem : delimiters.opening ∈ name ++ [delimiters.closing] := by
              rw [eqPlaceholder.2, eqRest.1]
              simp
            rw [List.mem_append, List.mem_singleton] at openingMem
            rcases openingMem with inName | isClosing
            · exact absurd inName isName.1
            · exact absurd isClosing delimiters.distinct

omit [DecidableEq Item] in
theorem prefix_append_placeholder_iff {item : Item} (isName : delimiters.IsName name)
    (before after : List Item) :
    delimiters.placeholder name <+: item :: (before ++ (delimiters.placeholder other ++ after)) ↔
      delimiters.placeholder name <+: item :: before :=
  prefix_append_opening_iff isName (List.cons_ne_nil item before)

omit [DecidableEq Item] in
theorem prefix_closing_iff {after : List Item} (isName : delimiters.IsName name)
    (otherName : delimiters.IsName other) :
    name ++ [delimiters.closing] <+: other ++ delimiters.closing :: after ↔ name = other := by
  constructor
  · intro here
    induction name generalizing other with
    | nil =>
        cases other with
        | nil => rfl
        | cons first other =>
            rw [List.nil_append, List.cons_append, List.cons_prefix_cons] at here
            exact absurd (by simp [here.1]) otherName.2
    | cons item name ih =>
        cases other with
        | nil =>
            rw [List.nil_append, List.cons_append, List.cons_prefix_cons] at here
            exact absurd (by simp [here.1]) isName.2
        | cons first other =>
            rw [List.cons_append, List.cons_append, List.cons_prefix_cons] at here
            unfold IsName at isName otherName
            simp only [List.mem_cons, not_or] at isName otherName
            rw [here.1, ih ⟨isName.1.2, isName.2.2⟩ ⟨otherName.1.2, otherName.2.2⟩ here.2]
  · rintro rfl
    exact ⟨after, by simp⟩

omit [DecidableEq Item] in
theorem prefix_placeholder_iff {after : List Item} (isName : delimiters.IsName name)
    (otherName : delimiters.IsName other) :
    delimiters.placeholder name <+: delimiters.placeholder other ++ after ↔ name = other := by
  unfold placeholder
  rw [List.cons_append, List.cons_prefix_cons, List.append_assoc, List.singleton_append,
    prefix_closing_iff isName otherName]
  simp

theorem occurrences_of_notMem {before : List Item} (notMem : delimiters.opening ∉ before)
    (after : List Item) :
    occurrences (delimiters.placeholder name) (before ++ after) =
      occurrences (delimiters.placeholder name) after := by
  induction before with
  | nil => rfl
  | cons item before ih =>
      rw [List.mem_cons, not_or] at notMem
      have notHere : ¬ delimiters.placeholder name <+: item :: (before ++ after) := by
        rw [placeholder, List.cons_prefix_cons]
        exact fun here => notMem.1 here.1
      rw [List.cons_append, occurrences, if_neg notHere, ih notMem.2, Nat.zero_add]

theorem occurrences_placeholder_append (isName : delimiters.IsName name)
    (otherName : delimiters.IsName other) (after : List Item) :
    occurrences (delimiters.placeholder name) (delimiters.placeholder other ++ after) =
      (if name = other then 1 else 0) + occurrences (delimiters.placeholder name) after := by
  have notMem : delimiters.opening ∉ other ++ [delimiters.closing] := by
    simp [otherName.1, delimiters.distinct]
  have here := @prefix_placeholder_iff _ delimiters name other after isName otherName
  rw [← occurrences_of_notMem notMem after]
  unfold placeholder at here ⊢
  rw [List.cons_append] at here ⊢
  rw [occurrences]
  congr 1
  exact if_congr here rfl rfl

theorem occurrences_append_placeholder (isName : delimiters.IsName name)
    (otherName : delimiters.IsName other) (before after : List Item) :
    occurrences (delimiters.placeholder name) (before ++ (delimiters.placeholder other ++ after)) =
      occurrences (delimiters.placeholder name) before + ((if name = other then 1 else 0) +
        occurrences (delimiters.placeholder name) after) := by
  induction before with
  | nil =>
      rw [List.nil_append, occurrences_placeholder_append isName otherName, occurrences,
        Nat.zero_add]
  | cons item before ih =>
      have here := @prefix_append_placeholder_iff _ delimiters name other item isName before after
      rw [List.cons_append, occurrences, ih, occurrences, if_congr here rfl rfl]
      omega

/-- Replacing a placeholder before one occurrence and behind it. -/
theorem replaceEach_append_placeholder (isName : delimiters.IsName name)
    (value before after : List Item) :
    replaceEach (delimiters.placeholder name) value 0
        (before ++ (delimiters.placeholder name ++ after)) =
      replaceEach (delimiters.placeholder name) value 0 before ++
        (value ++ replaceEach (delimiters.placeholder name) value 0 after) := by
  induction lengthEq : before.length using Nat.strong_induction_on generalizing before with
  | _ length ih =>
      have skips : ∀ rest, replaceEach (delimiters.placeholder name) value 0
          (delimiters.placeholder name ++ rest) =
            value ++ replaceEach (delimiters.placeholder name) value 0 rest := by
        intro rest
        have placeholderLength : (delimiters.placeholder name).length - 1 =
            (name ++ [delimiters.closing]).length := by simp [placeholder]
        rw [← replaceEach_skip value (name ++ [delimiters.closing]) rest, ← placeholderLength]
        nth_rewrite 2 [placeholder]
        rw [List.cons_append, replaceEach, if_pos]
        exact List.prefix_append _ rest
      cases before with
      | nil => rw [List.nil_append, skips, replaceEach, List.nil_append]
      | cons item before =>
          by_cases starts : delimiters.placeholder name <+: item :: before
          · rcases starts with ⟨rest, eq⟩
            have shorter : rest.length < length := by
              have lengths := congrArg List.length eq
              rw [List.length_append, lengthEq] at lengths
              simp only [placeholder, List.length_cons] at lengths
              omega
            rw [← eq, List.append_assoc, skips, skips, ih _ shorter rest rfl, List.append_assoc]
          · have notHere : ¬ delimiters.placeholder name <+:
                item :: (before ++ (delimiters.placeholder name ++ after)) :=
              fun here => starts ((prefix_append_placeholder_iff isName before after).mp here)
            rw [List.cons_append, replaceEach, if_neg notHere, replaceEach, if_neg starts,
              List.cons_append]
            congr 1
            exact ih _ (by rw [← lengthEq, List.length_cons]; omega) before rfl

/-! ## Pieces -/

def WellNamed (delimiters : Delimiters Item) (pieces : List (Piece Item)) : Prop :=
  ∀ name, .named name ∈ pieces → delimiters.IsName name

/-- How many pieces have a name. -/
def marks (name : List Item) (pieces : List (Piece Item)) : ℕ :=
  pieces.count (.named name)

theorem nameAt_eq_some {items : List Item} (found : delimiters.nameAt items = some name) :
    delimiters.IsName name ∧ ∃ rest, items = delimiters.placeholder name ++ rest := by
  cases items with
  | nil => cases found
  | cons item items =>
      unfold nameAt at found
      dsimp only at found
      split at found
      case isFalse => cases found
      case isTrue delimited =>
        cases found
        have outside : ∀ other ∈ items.takeWhile (fun other =>
            decide (other ≠ delimiters.opening ∧ other ≠ delimiters.closing)),
              other ≠ delimiters.opening ∧ other ≠ delimiters.closing := by
          intro other otherMem
          simpa using List.mem_takeWhile_imp otherMem
        generalize nameEq : items.takeWhile (fun other =>
          decide (other ≠ delimiters.opening ∧ other ≠ delimiters.closing)) = name
          at outside delimited ⊢
        refine ⟨⟨fun inName => (outside _ inName).1 rfl, fun inName => (outside _ inName).2 rfl⟩,
          ?_⟩
        have isPrefix : name <+: items := by
          rw [← nameEq]
          exact List.takeWhile_prefix _
        rcases isPrefix with ⟨rest, rfl⟩
        rw [List.drop_left] at delimited
        cases rest with
        | nil => simp at delimited
        | cons closing rest =>
            rw [List.head?_cons, Option.some_inj] at delimited
            refine ⟨rest, ?_⟩
            rw [delimited.1, delimited.2]
            simp [placeholder]

theorem nameAt_placeholder (isName : delimiters.IsName name) (rest : List Item) :
    delimiters.nameAt (delimiters.placeholder name ++ rest) = some name := by
  have outside : ∀ other ∈ name,
      decide (other ≠ delimiters.opening ∧ other ≠ delimiters.closing) = true := by
    intro other otherMem
    simp only [decide_eq_true_eq]
    exact ⟨fun isOpening => isName.1 (isOpening ▸ otherMem),
      fun isClosing => isName.2 (isClosing ▸ otherMem)⟩
  have taken : (name ++ delimiters.closing :: rest).takeWhile (fun other =>
      decide (other ≠ delimiters.opening ∧ other ≠ delimiters.closing)) = name := by
    rw [List.takeWhile_append_of_pos outside, List.takeWhile_cons_of_neg (by simp),
      List.append_nil]
  unfold placeholder nameAt
  simp only [List.cons_append, List.append_assoc, List.nil_append]
  rw [taken]
  simp

section Skipping

omit [DecidableEq Item] in
theorem drop_placeholder (rest : List Item) :
    ((name ++ [delimiters.closing]) ++ rest).drop (name.length + 1) = rest := by
  have lengthEq : name.length + 1 = (name ++ [delimiters.closing]).length := by simp
  rw [lengthEq, List.drop_left]

/-- A property that pieces share with the items they are taken from, seen from every place. -/
theorem piecesAfter_induct {Holds : List Item → List (Piece Item) → Prop}
    (nil : Holds [] [])
    (item : ∀ item rest pieces, delimiters.nameAt (item :: rest) = none → Holds rest pieces →
      Holds (item :: rest) (.item item :: pieces))
    (named : ∀ name rest pieces, delimiters.IsName name → Holds rest pieces →
      Holds (delimiters.placeholder name ++ rest) (.named name :: pieces))
    (skipped : ℕ) (items : List Item) :
    Holds (items.drop skipped) (delimiters.piecesAfter skipped items) := by
  induction items generalizing skipped with
  | nil =>
      rw [List.drop_nil]
      cases skipped <;> exact nil
  | cons first rest ih =>
      cases skipped with
      | succ skipped => exact ih skipped
      | zero =>
          rw [List.drop_zero, piecesAfter]
          cases found : delimiters.nameAt (first :: rest) with
          | none => exact item first rest _ found (ih 0)
          | some name =>
              rcases nameAt_eq_some found with ⟨isName, after, eq⟩
              have tail : rest = (name ++ [delimiters.closing]) ++ after := by
                unfold placeholder at eq
                rw [List.cons_append, List.cons.injEq] at eq
                exact eq.2
              have later := ih (name.length + 1)
              rw [eq]
              refine named name after _ isName ?_
              rw [tail] at later ⊢
              rwa [drop_placeholder] at later

theorem pieces_induct {Holds : List Item → List (Piece Item) → Prop}
    (nil : Holds [] [])
    (item : ∀ item rest pieces, delimiters.nameAt (item :: rest) = none → Holds rest pieces →
      Holds (item :: rest) (.item item :: pieces))
    (named : ∀ name rest pieces, delimiters.IsName name → Holds rest pieces →
      Holds (delimiters.placeholder name ++ rest) (.named name :: pieces)) (items : List Item) :
    Holds items (delimiters.pieces items) :=
  piecesAfter_induct nil item named 0 items

end Skipping

theorem pieces_wellNamed (items : List Item) : delimiters.WellNamed (delimiters.pieces items) := by
  refine @pieces_induct _ _ _ (fun _ pieces => delimiters.WellNamed pieces) ?_ ?_ ?_ items
  · intro name nameMem
    cases nameMem
  · intro item rest pieces _ wellNamed name nameMem
    rw [List.mem_cons] at nameMem
    rcases nameMem with same | nameMem
    · cases same
    · exact wellNamed name nameMem
  · intro other rest pieces isName wellNamed name nameMem
    rw [List.mem_cons, Piece.named.injEq] at nameMem
    rcases nameMem with rfl | nameMem
    · exact isName
    · exact wellNamed name nameMem

theorem render_pieces (items : List Item) :
    delimiters.render (fun _ => none) (delimiters.pieces items) = items := by
  refine @pieces_induct _ _ delimiters
    (fun items pieces => delimiters.render (fun _ => none) pieces = items) ?_ ?_ ?_ items
  · rfl
  · intro item rest pieces _ rendered
    rw [render, List.flatMap_cons, ← render, rendered]
    rfl
  · intro name rest pieces _ rendered
    rw [render, List.flatMap_cons, ← render, rendered]
    rfl

theorem occurrences_eq_marks (isName : delimiters.IsName name) (items : List Item) :
    occurrences (delimiters.placeholder name) items = marks name (delimiters.pieces items) := by
  refine @pieces_induct _ _ _ (fun items pieces =>
    occurrences (delimiters.placeholder name) items = marks name pieces) ?_ ?_ ?_ items
  · rfl
  · intro item rest pieces notNamed same
    have notHere : ¬ delimiters.placeholder name <+: item :: rest := by
      rintro ⟨after, eq⟩
      rw [← eq, nameAt_placeholder isName] at notNamed
      cases notNamed
    rw [occurrences, if_neg notHere, same, marks, marks, List.count_cons]
    simp
  · intro other rest pieces otherName same
    rw [occurrences_placeholder_append isName otherName, same, marks, marks, List.count_cons]
    by_cases sameName : name = other
    · simp [sameName, Nat.add_comm]
    · simp [sameName, Ne.symm sameName]

/-! ## Rendering -/

section Rendering

variable {valueOf later : List Item → Option (List Item)} {pieces : List (Piece Item)}

omit [DecidableEq Item] in
theorem render_cons (piece : Piece Item) :
    delimiters.render valueOf (piece :: pieces) =
      delimiters.pieceItems valueOf piece ++ delimiters.render valueOf pieces :=
  List.flatMap_cons

theorem marks_le_occurrences (isName : delimiters.IsName name)
    (noValue : valueOf name = none) :
    marks name pieces ≤
      occurrences (delimiters.placeholder name) (delimiters.render valueOf pieces) := by
  induction pieces with
  | nil => exact Nat.zero_le _
  | cons piece pieces ih =>
      have more := @occurrences_append_le _ _ (delimiters.placeholder name)
        (delimiters.pieceItems valueOf piece) (delimiters.render valueOf pieces)
      rw [render_cons]
      by_cases isMark : piece = .named name
      · subst isMark
        have one := occurrences_placeholder_append isName isName
          (delimiters.render valueOf pieces)
        rw [if_pos rfl] at one
        rw [pieceItems, noValue, Option.getD_none, one, marks, List.count_cons_self]
        unfold marks at ih
        omega
      · rw [marks, List.count_cons_of_ne isMark]
        unfold marks at ih
        omega

/-- More values can only make more of a placeholder that has none. -/
theorem occurrences_render_mono (isName : delimiters.IsName name)
    (wellNamed : delimiters.WellNamed pieces)
    (extended : ∀ other value, valueOf other = some value → later other = some value)
    (noValue : later name = none) (before : List Item) :
    occurrences (delimiters.placeholder name) (before ++ delimiters.render valueOf pieces) ≤
      occurrences (delimiters.placeholder name) (before ++ delimiters.render later pieces) := by
  induction pieces generalizing before with
  | nil => exact le_rfl
  | cons piece pieces ih =>
      have wellNamedRest : delimiters.WellNamed pieces := fun other otherMem =>
        wellNamed other (List.mem_cons_of_mem _ otherMem)
      have step := ih wellNamedRest
      rw [render_cons, render_cons, ← List.append_assoc, ← List.append_assoc]
      by_cases same : delimiters.pieceItems valueOf piece = delimiters.pieceItems later piece
      · rw [same]
        exact step _
      · cases piece with
        | item value => exact absurd rfl same
        | named other =>
            have noneYet : valueOf other = none := by
              cases valueEq : valueOf other with
              | none => rfl
              | some value =>
                  apply absurd _ same
                  rw [pieceItems, pieceItems, valueEq, extended other value valueEq]
            have otherName := wellNamed other List.mem_cons_self
            have different : name ≠ other := by
              rintro rfl
              apply same
              rw [pieceItems, pieceItems, noneYet, noValue]
            have apart := occurrences_append_placeholder isName otherName before
              (delimiters.render valueOf pieces)
            have rest := step []
            have first := @occurrences_append_le _ _ (delimiters.placeholder name)
              (before ++ delimiters.pieceItems later (.named other))
              (delimiters.render later pieces)
            have second := @occurrences_append_le _ _ (delimiters.placeholder name) before
              (delimiters.pieceItems later (.named other))
            rw [if_neg different] at apart
            rw [List.append_assoc, pieceItems, noneYet, Option.getD_none, apart]
            rw [List.nil_append, List.nil_append] at rest
            omega

/-- Where a placeholder occurs only as a piece, replacing it gives its name the value. -/
theorem replaceEach_render (isName : delimiters.IsName name) (noValue : valueOf name = none)
    (value before : List Item)
    (only : occurrences (delimiters.placeholder name)
      (before ++ delimiters.render valueOf pieces) = marks name pieces) :
    replaceEach (delimiters.placeholder name) value 0
        (before ++ delimiters.render valueOf pieces) =
      before ++ delimiters.render (Function.update valueOf name (some value)) pieces := by
  induction pieces generalizing before with
  | nil => exact replaceEach_of_occurrences_eq_zero value only
  | cons piece pieces ih =>
      rw [render_cons] at only ⊢
      rw [render_cons]
      by_cases isMark : piece = .named name
      · subst isMark
        have split := occurrences_append_placeholder isName isName before
          (delimiters.render valueOf pieces)
        have atLeast := @marks_le_occurrences _ _ delimiters name valueOf pieces isName noValue
        rw [pieceItems, noValue, Option.getD_none, split, if_pos rfl, marks,
          List.count_cons_self] at only
        unfold marks at atLeast
        have noneBefore : occurrences (delimiters.placeholder name) before = 0 := by omega
        have rest := ih [] (by rw [List.nil_append, marks]; omega)
        rw [pieceItems, noValue, Option.getD_none, replaceEach_append_placeholder isName,
          replaceEach_of_occurrences_eq_zero value noneBefore, pieceItems, Function.update_self,
          Option.getD_some]
        rw [List.nil_append, List.nil_append] at rest
        rw [rest]
      · have sameItems : delimiters.pieceItems (Function.update valueOf name (some value)) piece =
            delimiters.pieceItems valueOf piece := by
          cases piece with
          | item item => rfl
          | named other =>
              have different : other ≠ name := fun same => isMark (by rw [same])
              rw [pieceItems, pieceItems, Function.update_of_ne different]
        rw [marks, List.count_cons_of_ne isMark, ← List.append_assoc] at only
        rw [sameItems, ← List.append_assoc, ← List.append_assoc]
        exact ih _ only

end Rendering

end Delimiters

end Brunomnia.Library
