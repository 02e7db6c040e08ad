import Brunomnia.Runner.Layers

/-!
# Rows and layers that decide a key

Which row decides a key is said by its place among the others: in merged rows by the place
where its name is first mentioned, in layers by the innermost layer that mentions the key.
Rows of texts with names apart from each other are decided alike on both ways.
-/

namespace Brunomnia.Runner

open Codegen (Text trimText)
open Library

/-! ## Last items -/

section LastWith

variable {Item : Type} {items : List Item} {wanted : Item → Prop} {item : Item}

/-- The last item of a list that is wanted. -/
def LastWith (items : List Item) (wanted : Item → Prop) (item : Item) : Prop :=
  ∃ before after, items = before ++ item :: after ∧ wanted item ∧ ∀ later ∈ after, ¬ wanted later

theorem LastWith.mem (last : LastWith items wanted item) : item ∈ items := by
  rcases last with ⟨before, after, rfl, _⟩
  simp

theorem LastWith.isWanted (last : LastWith items wanted item) : wanted item := by
  rcases last with ⟨_, _, _, isWanted, _⟩
  exact isWanted

theorem reverse_find?_eq_some_iff {chosen : Item → Bool} :
    items.reverse.find? chosen = some item ↔
      LastWith items (fun item => chosen item = true) item := by
  rw [List.find?_eq_some_iff_append]
  constructor
  · rintro ⟨isChosen, after, before, split, notLater⟩
    refine ⟨before.reverse, after.reverse, ?_, isChosen, ?_⟩
    · rw [← List.reverse_reverse items, split]
      simp
    · intro later laterMem
      simpa using notLater later (List.mem_reverse.mp laterMem)
  · rintro ⟨before, after, rfl, isChosen, notLater⟩
    refine ⟨isChosen, after.reverse, before.reverse, by simp, ?_⟩
    intro later laterMem
    simpa using notLater later (List.mem_reverse.mp laterMem)

theorem reverse_findSome?_eq_some_iff {Found : Type} {find : Item → Option Found} {found : Found} :
    items.reverse.findSome? find = some found ↔
      ∃ item, LastWith items (fun item => find item ≠ none) item ∧ find item = some found := by
  rw [List.findSome?_eq_some_iff]
  constructor
  · rintro ⟨after, item, before, split, isFound, notLater⟩
    refine ⟨item, ⟨before.reverse, after.reverse, ?_, by simp [isFound], ?_⟩, isFound⟩
    · rw [← List.reverse_reverse items, split]
      simp
    · intro later laterMem
      exact not_not.mpr (notLater later (List.mem_reverse.mp laterMem))
  · rintro ⟨item, ⟨before, after, rfl, _, notLater⟩, isFound⟩
    refine ⟨after.reverse, item, before.reverse, by simp, isFound, ?_⟩
    intro later laterMem
    exact not_not.mp (notLater later (List.mem_reverse.mp laterMem))

theorem lastWith_iff_of_sorted {place : Item → ℕ}
    (sorted : items.Pairwise fun before after => place before < place after) :
    LastWith items wanted item ↔
      item ∈ items ∧ wanted item ∧ ∀ other ∈ items, wanted other → place other ≤ place item := by
  constructor
  · rintro ⟨before, after, rfl, isWanted, notLater⟩
    refine ⟨by simp, isWanted, fun other otherMem otherWanted => ?_⟩
    have order := (List.pairwise_append.mp sorted).2.2
    rcases List.mem_append.mp otherMem with earlier | rest
    · exact (order other earlier item List.mem_cons_self).le
    · rcases List.mem_cons.mp rest with rfl | later
      · exact le_rfl
      · exact absurd otherWanted (notLater other later)
  · rintro ⟨itemMem, isWanted, greatest⟩
    rcases List.append_of_mem itemMem with ⟨before, after, rfl⟩
    refine ⟨before, after, rfl, isWanted, fun later laterMem laterWanted => ?_⟩
    have order := (List.pairwise_cons.mp (List.pairwise_append.mp sorted).2.1).1 later laterMem
    exact absurd (greatest later (by simp [laterMem]) laterWanted) (not_le.mpr order)

end LastWith

def firstPlace {Key : Type} [DecidableEq Key] (keys : List Key) (key : Key) : ℕ :=
  keys.idxOf key

theorem firstKeys_sorted {Key : Type} [DecidableEq Key] (keys : List Key) :
    (firstKeys keys).Pairwise fun before after =>
      firstPlace keys before < firstPlace keys after := by
  induction keys using List.reverseRecOn with
  | nil => exact List.Pairwise.nil
  | append_singleton keys key ih =>
      unfold firstKeys firstPlace at *
      rw [List.eraseDups_append, List.pairwise_append]
      have placed : ∀ other ∈ keys, (keys ++ [key]).idxOf other = keys.idxOf other :=
        fun other otherMem => List.idxOf_append_of_mem otherMem
      refine ⟨ih.imp_of_mem ?_, ?_, ?_⟩
      · intro before after beforeMem afterMem order
        rw [List.mem_eraseDups] at beforeMem afterMem
        rwa [placed before beforeMem, placed after afterMem]
      · by_cases known : key ∈ keys
        · simp [List.removeAll, known]
        · simp [List.removeAll, known, List.eraseDups_cons]
      · intro before beforeMem after afterMem
        rw [List.mem_eraseDups] at beforeMem afterMem
        have fresh : after = key ∧ after ∉ keys := by simpa [List.removeAll] using afterMem
        rw [placed before beforeMem, List.idxOf_append_of_notMem fresh.2]
        exact (List.idxOf_lt_length_of_mem beforeMem).trans_le (Nat.le_add_right _ _)

/-! ## Merged rows -/

theorem lastRow_eq_some_iff {rows : List KeyValue} {name : Text} {row : KeyValue} :
    lastRow rows name = some row ↔
      LastWith rows (fun other => isNamed other = true ∧ trimText other.name = name) row := by
  unfold lastRow
  rw [reverse_find?_eq_some_iff]
  simp only [Bool.and_eq_true, decide_eq_true_eq]

theorem mem_rowNames {rows : List KeyValue} {name : Text} :
    name ∈ rowNames rows ↔ ∃ row ∈ rows, isNamed row = true ∧ trimText row.name = name := by
  unfold rowNames
  rw [List.mem_map]
  simp only [List.mem_filter, and_assoc]

/-- The row that decides a key among merged rows: its name is at or above the key, no other such
name is first mentioned after it, and the row is the last one of its name. -/
structure DecidesMerged (rows : List KeyValue) (key : Text) (row : KeyValue) : Prop where
  covering : covers (trimText row.name) key = true
  last : LastWith rows
    (fun other => isNamed other = true ∧ trimText other.name = trimText row.name) row
  newest : ∀ other ∈ rows, isNamed other = true → covers (trimText other.name) key = true →
    firstPlace (rowNames rows) (trimText other.name) ≤
      firstPlace (rowNames rows) (trimText row.name)

theorem mergedRow_eq_some_iff {rows : List KeyValue} {key : Text} {row : KeyValue} :
    mergedRow rows key = some row ↔ DecidesMerged rows key row := by
  unfold mergedRow decidingName
  rw [Option.bind_eq_some_iff]
  simp only [reverse_find?_eq_some_iff, lastWith_iff_of_sorted (firstKeys_sorted (rowNames rows)),
    mem_firstKeys, lastRow_eq_some_iff]
  constructor
  · rintro ⟨name, ⟨_, covering, newest⟩, last⟩
    obtain rfl := last.isWanted.2
    exact ⟨covering, last, fun other otherMem named otherCovers =>
      newest _ (mem_rowNames.mpr ⟨other, otherMem, named, rfl⟩) otherCovers⟩
  · rintro ⟨covering, last, newest⟩
    refine ⟨trimText row.name,
      ⟨mem_rowNames.mpr ⟨row, last.mem, last.isWanted.1, rfl⟩, covering, ?_⟩, last⟩
    intro name nameMem nameCovers
    rcases mem_rowNames.mp nameMem with ⟨other, otherMem, otherNamed, rfl⟩
    exact newest other otherMem otherNamed nameCovers

/-! ## Layers -/

section Layers

variable (parse : Text → Option JsonTree)

/-- A layer gives a key a text: the last of its environment rows whose name is at or above the
key does, or the last enabled row of a folder that has exactly this name. -/
inductive Layer.Gives : Layer → Text → Text → Prop where
  | environment {rows : List KeyValue} {row : KeyValue} {key text : Text}
      (last : LastWith rows
        (fun other => isNamed other = true ∧ covers (trimText other.name) key = true) row)
      (given : rowText parse row key = some text) : Gives (.environment rows) key text
  | folder {rows : List KeyValue} {row : KeyValue}
      (last : LastWith rows
        (fun other => other.enabled = true ∧ other.name ≠ [] ∧ other.name = row.name) row) :
      Gives (.folder rows) row.name row.value

/-- A layer disables a key: the last of its environment rows with this name is disabled, or some
row of a folder is that has exactly this name. -/
inductive Layer.Disables : Layer → Text → Prop where
  | environment {rows : List KeyValue} {row : KeyValue}
      (last : LastWith rows
        (fun other => isNamed other = true ∧ trimText other.name = trimText row.name) row)
      (disabled : row.enabled = false) : Disables (.environment rows) (trimText row.name)
  | folder {rows : List KeyValue} {row : KeyValue} (listed : row ∈ rows)
      (disabled : row.enabled = false) (named : row.name ≠ []) : Disables (.folder rows) row.name

/-- A layer says something of a key. -/
def Layer.Mentions (layer : Layer) (key : Text) : Prop :=
  (∃ text, layer.Gives parse key text) ∨ layer.Disables key

theorem coveringRow_eq_some_iff {rows : List KeyValue} {key : Text} {row : KeyValue} :
    coveringRow rows key = some row ↔
      LastWith rows
        (fun other => isNamed other = true ∧ covers (trimText other.name) key = true) row := by
  unfold coveringRow
  rw [reverse_find?_eq_some_iff]
  simp only [Bool.and_eq_true]

theorem folderRow_eq_some_iff {rows : List KeyValue} {key : Text} {row : KeyValue} :
    folderRow rows key = some row ↔ row.name = key ∧
      LastWith rows
        (fun other => other.enabled = true ∧ other.name ≠ [] ∧ other.name = row.name) row := by
  unfold folderRow
  rw [reverse_find?_eq_some_iff]
  simp only [Bool.and_eq_true, decide_eq_true_eq, and_assoc]
  constructor
  · intro last
    have nameEq := last.isWanted.2.2
    rw [nameEq]
    exact ⟨rfl, last⟩
  · rintro ⟨rfl, last⟩
    exact last

variable {parse}

theorem Layer.gives_text_iff {layer : Layer} {key text : Text} :
    layer.gives parse key = some (some text) ↔ layer.Gives parse key text := by
  cases layer with
  | environment rows =>
      have given : ((coveringRow rows key).bind fun row => rowText parse row key) = some text ↔
          (Layer.environment rows).Gives parse key text := by
        rw [Option.bind_eq_some_iff]
        simp only [coveringRow_eq_some_iff]
        constructor
        · rintro ⟨row, last, given⟩
          exact .environment last given
        · rintro (⟨last, given⟩ | _)
          exact ⟨_, last, given⟩
      rw [← given]
      simp only [Layer.gives]
      cases (coveringRow rows key).bind fun row => rowText parse row key with
      | some found => simp
      | none => simp
  | folder rows =>
      have given : (∃ row, folderRow rows key = some row ∧ row.value = text) ↔
          (Layer.folder rows).Gives parse key text := by
        simp only [folderRow_eq_some_iff]
        constructor
        · rintro ⟨row, ⟨rfl, last⟩, rfl⟩
          exact .folder last
        · rintro (_ | last)
          exact ⟨_, ⟨rfl, last⟩, rfl⟩
      rw [← given]
      simp only [Layer.gives]
      cases folderRow rows key with
      | some row => simp
      | none => simp

theorem Layer.gives_ne_none_iff {layer : Layer} {key : Text} :
    layer.gives parse key ≠ none ↔ layer.Mentions parse key := by
  have texts : (∃ text, layer.Gives parse key text) ↔
      ∃ text, layer.gives parse key = some (some text) :=
    exists_congr fun _ => Layer.gives_text_iff.symm
  have disables : (∀ text, layer.gives parse key ≠ some (some text)) →
      (layer.gives parse key ≠ none ↔ layer.Disables key) := by
    intro noText
    cases layer with
    | environment rows =>
        have last : ((lastRow rows key).any fun row => !row.enabled) = true ↔
            (Layer.environment rows).Disables key := by
          constructor
          · intro found
            cases lastEq : lastRow rows key with
            | none => simp [lastEq] at found
            | some row =>
                have isLast := lastRow_eq_some_iff.mp lastEq
                obtain rfl := (lastRow_spec lastEq).2
                exact .environment isLast (by simpa [lastEq] using found)
          · rintro (⟨isLast, disabled⟩ | _)
            rw [lastRow_eq_some_iff.mpr isLast]
            simp [disabled]
        rw [← last]
        simp only [Layer.gives] at noText ⊢
        cases found : (coveringRow rows key).bind fun row => rowText parse row key with
        | some text => simp [found] at noText
        | none => simp
    | folder rows =>
        have listed : (∃ row ∈ rows, row.enabled = false ∧ row.name ≠ [] ∧ row.name = key) ↔
            (Layer.folder rows).Disables key := by
          constructor
          · rintro ⟨row, rowMem, disabled, named, rfl⟩
            exact .folder rowMem disabled named
          · rintro (_ | ⟨rowMem, disabled, named⟩)
            exact ⟨_, rowMem, disabled, named, rfl⟩
        rw [← listed]
        simp only [Layer.gives] at noText ⊢
        cases found : folderRow rows key with
        | some row => simp [found] at noText
        | none => simp
  unfold Layer.Mentions
  rw [texts]
  by_cases text : ∃ text, layer.gives parse key = some (some text)
  · rcases text with ⟨text, given⟩
    simp [given]
  · simp only [text, false_or]
    exact disables (not_exists.mp text)

end Layers

def Layer.rows : Layer → List KeyValue
  | .environment rows => rows
  | .folder rows => rows

/-! ## Decided alike -/

section Alike

variable {parse : Text → Option JsonTree} {rows : List KeyValue} {layers : List Layer} {key : Text}

/-- Merged rows and layers decide a key alike: they both leave it without a text, or the row and
the innermost layer that decide it give it the same one. -/
inductive DecidedAlike (parse : Text → Option JsonTree) (rows : List KeyValue)
    (layers : List Layer) (key : Text) : Prop where
  | unset (noRow : ∀ row, DecidesMerged rows key row → rowText parse row key = none)
      (noLayer : ∀ layer, LastWith layers (fun other => other.Mentions parse key) layer →
        ∀ text, ¬ layer.Gives parse key text) : DecidedAlike parse rows layers key
  | sameText {row : KeyValue} {layer : Layer} {text : Text} (decides : DecidesMerged rows key row)
      (given : rowText parse row key = some text)
      (innermost : LastWith layers (fun other => other.Mentions parse key) layer)
      (gives : layer.Gives parse key text) : DecidedAlike parse rows layers key

theorem mergedText_iff {text : Text} :
    ((mergedRow rows key).bind fun row => rowText parse row key) = some text ↔
      ∃ row, DecidesMerged rows key row ∧ rowText parse row key = some text := by
  rw [Option.bind_eq_some_iff]
  simp only [mergedRow_eq_some_iff]

theorem layersText_iff {text : Text} :
    (layers.reverse.findSome? fun layer => layer.gives parse key).join = some text ↔
      ∃ layer, LastWith layers (fun other => other.Mentions parse key) layer ∧
        layer.Gives parse key text := by
  rw [Option.join_eq_some_iff, reverse_findSome?_eq_some_iff]
  simp only [Layer.gives_ne_none_iff, Layer.gives_text_iff]

theorem decidedAlike_iff : DecidedAlike parse rows layers key ↔
    ((mergedRow rows key).bind fun row => rowText parse row key) =
      (layers.reverse.findSome? fun layer => layer.gives parse key).join := by
  constructor
  · rintro (⟨noRow, noLayer⟩ | ⟨decides, given, innermost, gives⟩)
    · have noText : ∀ text, ((mergedRow rows key).bind fun row => rowText parse row key) ≠
          some text := by
        intro text isText
        rcases mergedText_iff.mp isText with ⟨row, decides, given⟩
        rw [noRow row decides] at given
        cases given
      have noLaid : ∀ text, (layers.reverse.findSome? fun layer => layer.gives parse key).join ≠
          some text := by
        intro text isText
        rcases layersText_iff.mp isText with ⟨layer, innermost, gives⟩
        exact noLayer layer innermost text gives
      rw [Option.eq_none_iff_forall_ne_some.mpr noText,
        Option.eq_none_iff_forall_ne_some.mpr noLaid]
    · rw [mergedText_iff.mpr ⟨_, decides, given⟩, layersText_iff.mpr ⟨_, innermost, gives⟩]
  · intro same
    cases textEq : (mergedRow rows key).bind fun row => rowText parse row key with
    | none =>
        rw [textEq] at same
        refine .unset (fun row decides => ?_) fun layer innermost text gives => ?_
        · cases given : rowText parse row key with
          | none => rfl
          | some text =>
              rw [mergedText_iff.mpr ⟨row, decides, given⟩] at textEq
              cases textEq
        · rw [layersText_iff.mpr ⟨layer, innermost, gives⟩] at same
          cases same
    | some text =>
        rw [textEq] at same
        rcases mergedText_iff.mp textEq with ⟨row, decides, given⟩
        rcases layersText_iff.mp same.symm with ⟨layer, innermost, gives⟩
        exact .sameText decides given innermost gives

/-! ### Rows of texts -/

/-- Layers of the rows that are merged, which hold texts under names that are not below each
other; in a folder the names have no blanks around them and are all different. -/
structure SeparateTexts (rows : List KeyValue) (layers : List Layer) : Prop where
  sameRows : rows = layers.flatMap Layer.rows
  texts : ∀ row ∈ rows, row.valueType = .string
  apart : ∀ row ∈ rows, ∀ other ∈ rows, covers (trimText row.name) (trimText other.name) = true →
    trimText row.name = trimText other.name
  trimmed : ∀ layer ∈ layers, ∀ folder, layer = .folder folder →
    (∀ row ∈ folder, trimText row.name = row.name) ∧ (folder.map KeyValue.name).Nodup

def shownText (row : KeyValue) : Option Text :=
  if row.enabled then some row.value else none

theorem rowText_of_string {row : KeyValue} (isText : row.valueType = .string)
    (named : isNamed row = true) :
    rowText parse row key = if trimText row.name = key then shownText row else none := by
  have hasName : trimText row.name ≠ [] := by simpa [isNamed] using named
  unfold rowText environmentRowEntries shownText
  cases enabled : row.enabled with
  | false => simp
  | true => simp [hasName, isText, lastValue]

theorem lastRow_append (rows later : List KeyValue) (name : Text) :
    lastRow (rows ++ later) name = (lastRow later name).or (lastRow rows name) := by
  unfold lastRow
  rw [List.reverse_append, List.find?_append]

theorem SeparateTexts.merged (separate : SeparateTexts rows layers) :
    ((mergedRow rows key).bind fun row => rowText parse row key) =
      (lastRow rows key).bind shownText := by
  cases lastEq : lastRow rows key with
  | some row =>
      rcases lastRow_spec lastEq with ⟨named, rfl⟩
      have isLast := lastRow_eq_some_iff.mp lastEq
      have decides : DecidesMerged rows (trimText row.name) row := by
        refine ⟨covers_self _, isLast, fun other otherMem _ otherCovers => ?_⟩
        rw [separate.apart other otherMem row isLast.mem otherCovers]
      rw [mergedRow_eq_some_iff.mpr decides, Option.bind_some, Option.bind_some,
        rowText_of_string (separate.texts row isLast.mem) named, if_pos rfl]
  | none =>
      cases mergedEq : mergedRow rows key with
      | none => rfl
      | some row =>
          have isLast := (mergedRow_eq_some_iff.mp mergedEq).last
          rw [Option.bind_some, Option.bind_none,
            rowText_of_string (separate.texts row isLast.mem) isLast.isWanted.1, if_neg]
          rintro rfl
          rw [lastRow_eq_some_iff.mpr isLast] at lastEq
          cases lastEq

/-- The environment rows of a layer decide a key by the last one of this name. -/
theorem environment_gives {own : List KeyValue} (texts : ∀ row ∈ own, row.valueType = .string)
    (apart : ∀ row ∈ own, ∀ other ∈ own, covers (trimText row.name) (trimText other.name) = true →
      trimText row.name = trimText other.name) :
    (Layer.environment own).gives parse key = (lastRow own key).map shownText := by
  simp only [Layer.gives]
  cases lastEq : lastRow own key with
  | some row =>
      rcases lastRow_spec lastEq with ⟨named, rfl⟩
      have isLast := lastRow_eq_some_iff.mp lastEq
      have covering : coveringRow own (trimText row.name) = some row := by
        rcases id isLast with ⟨before, after, split, _, notLater⟩
        refine coveringRow_eq_some_iff.mpr ⟨before, after, split, ⟨named, covers_self _⟩, ?_⟩
        rintro later laterMem ⟨laterNamed, laterCovers⟩
        have listed : later ∈ own := by simp [split, laterMem]
        exact notLater later laterMem ⟨laterNamed, apart later listed row isLast.mem laterCovers⟩
      rw [covering, Option.bind_some, rowText_of_string (texts row isLast.mem) named, if_pos rfl]
      unfold shownText
      cases enabled : row.enabled with
      | true => simp [enabled]
      | false => simp [enabled]
  | none =>
      have noText : ((coveringRow own key).bind fun row => rowText parse row key) = none := by
        cases covering : coveringRow own key with
        | none => rfl
        | some row =>
            have isLast := coveringRow_eq_some_iff.mp covering
            have named := isLast.isWanted.1
            rw [Option.bind_some, rowText_of_string (texts row isLast.mem) named, if_neg]
            rintro rfl
            have found := List.find?_eq_none.mp lastEq row (by simpa using isLast.mem)
            simp [named] at found
      simp [noText]

/-- So do the rows of a folder whose names are all different and have no blanks around them. -/
theorem folder_gives {own : List KeyValue} (trimmed : ∀ row ∈ own, trimText row.name = row.name)
    (nodup : (own.map KeyValue.name).Nodup) :
    (Layer.folder own).gives parse key = (lastRow own key).map shownText := by
  simp only [Layer.gives]
  cases lastEq : lastRow own key with
  | some row =>
      rcases lastRow_spec lastEq with ⟨named, rfl⟩
      have isLast := lastRow_eq_some_iff.mp lastEq
      rw [trimmed row isLast.mem]
      have hasName : row.name ≠ [] := by simpa [isNamed, trimmed row isLast.mem] using named
      have onlyRow : ∀ other ∈ own, other.name = row.name → other = row :=
        fun other otherMem same => List.inj_on_of_nodup_map nodup otherMem isLast.mem same
      unfold shownText
      cases enabled : row.enabled with
      | true =>
          have chosen : folderRow own row.name = some row := by
            rcases id isLast with ⟨before, after, split, _, notLater⟩
            refine folderRow_eq_some_iff.mpr
              ⟨rfl, before, after, split, ⟨enabled, hasName, rfl⟩, ?_⟩
            rintro later laterMem ⟨_, _, same⟩
            rw [onlyRow later (by simp [split, laterMem]) same] at laterMem
            exact notLater row laterMem ⟨named, rfl⟩
          simp [chosen, enabled]
      | false =>
          have noneChosen : folderRow own row.name = none := by
            cases chosen : folderRow own row.name with
            | none => rfl
            | some other =>
                rcases folderRow_eq_some_iff.mp chosen with ⟨same, otherLast⟩
                have otherEnabled := otherLast.isWanted.1
                rw [onlyRow other otherLast.mem same, enabled] at otherEnabled
                cases otherEnabled
          have disabled : ∃ other ∈ own, other.enabled = false ∧ other.name ≠ [] ∧
              other.name = row.name := ⟨row, isLast.mem, enabled, hasName, rfl⟩
          simp [noneChosen, disabled, enabled]
  | none =>
      have noRow : ∀ row ∈ own, row.name ≠ [] → row.name ≠ key := by
        rintro row rowMem named rfl
        have found := List.find?_eq_none.mp lastEq row (by simpa using rowMem)
        simp [isNamed, trimmed row rowMem, named] at found
      have noneChosen : folderRow own key = none := by
        cases chosen : folderRow own key with
        | none => rfl
        | some row =>
            rcases folderRow_eq_some_iff.mp chosen with ⟨same, isLast⟩
            exact absurd same (noRow row isLast.mem isLast.isWanted.2.1)
      have noneDisabled : ¬ ∃ row ∈ own, row.enabled = false ∧ row.name ≠ [] ∧
          row.name = key := by
        rintro ⟨row, rowMem, _, named, same⟩
        exact noRow row rowMem named same
      simp only [noneChosen, if_neg noneDisabled, Option.map_none]

theorem SeparateTexts.gives (separate : SeparateTexts rows layers) {layer : Layer}
    (layerMem : layer ∈ layers) :
    layer.gives parse key = (lastRow layer.rows key).map shownText := by
  have inRows : ∀ row ∈ layer.rows, row ∈ rows := by
    intro row rowMem
    rw [separate.sameRows]
    exact List.mem_flatMap.mpr ⟨layer, layerMem, rowMem⟩
  have trimmed := separate.trimmed layer layerMem
  cases layer with
  | environment own =>
      exact environment_gives (fun row rowMem => separate.texts row (inRows row rowMem))
        fun row rowMem other otherMem =>
          separate.apart row (inRows row rowMem) other (inRows other otherMem)
  | folder own => exact folder_gives (trimmed own rfl).1 (trimmed own rfl).2

theorem findSome?_lastRow (layers : List Layer) :
    (layers.reverse.findSome? fun layer => (lastRow layer.rows key).map shownText) =
      (lastRow (layers.flatMap Layer.rows) key).map shownText := by
  induction layers using List.reverseRecOn with
  | nil => rfl
  | append_singleton layers layer ih =>
      rw [List.reverse_append, List.reverse_singleton, List.singleton_append, List.findSome?_cons,
        ih, List.flatMap_append, List.flatMap_singleton, lastRow_append]
      cases lastRow layer.rows key with
      | none => rfl
      | some row => rfl

theorem SeparateTexts.decidedAlike (separate : SeparateTexts rows layers) :
    DecidedAlike parse rows layers key := by
  rw [decidedAlike_iff, separate.merged]
  have sameGives : (layers.reverse.findSome? fun layer => layer.gives parse key) =
      layers.reverse.findSome? fun layer => (lastRow layer.rows key).map shownText := by
    have gives : ∀ layer ∈ layers.reverse,
        layer.gives parse key = (lastRow layer.rows key).map shownText :=
      fun layer layerMem => separate.gives (List.mem_reverse.mp layerMem)
    generalize layers.reverse = reversed at gives
    induction reversed with
    | nil => rfl
    | cons layer reversed ih =>
        rw [List.findSome?_cons, List.findSome?_cons, gives layer List.mem_cons_self,
          ih fun other otherMem => gives other (List.mem_cons_of_mem _ otherMem)]
  rw [sameGives, findSome?_lastRow, ← separate.sameRows]
  cases lastRow rows key with
  | none => rfl
  | some row => rfl

end Alike

end Brunomnia.Runner
