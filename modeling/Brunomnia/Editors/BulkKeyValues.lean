import Brunomnia.Codegen.Headers
import Brunomnia.Library.Trimming

/-!
# The bulk editor of rows

The bulk editor shows the enabled rows as lines with a name, a colon and a value, and reads lines
back into rows. Lines end at line feeds alone. The pattern that takes the value off a line does not
match across a carriage return or a line separator, so that a value with one of them is left in the
name, at least up to a later colon.
-/

namespace Brunomnia.Editors

open Codegen (Text trimText)

structure KeyValue where
  id : Text
  name : Text
  value : Text
  enabled : Bool
  deriving DecidableEq

/-! ## The two directions -/

def KeyValue.isShown (row : KeyValue) : Bool :=
  row.enabled && (!row.name.isEmpty || !row.value.isEmpty)

def formatLine (row : KeyValue) : Text :=
  row.name ++ [':', ' '] ++ row.value

def formatBulkKeyValues (rows : List KeyValue) : Text :=
  let lines := (rows.filter KeyValue.isShown).map formatLine
  if lines = [] then [] else List.intercalate ['\n'] lines ++ ['\n']

/-- `source.split(/\n+/)` -/
def splitLines : Text → List Text
  | [] => [[]]
  | letter :: rest =>
      if letter = '\n' then
        if rest.head? = some '\n' then splitLines rest else [] :: splitLines rest
      else
        match splitLines rest with
        | [] => [[letter]]
        | line :: others => (letter :: line) :: others

/-- The characters that `.` does not match. -/
def isLineTerminator (letter : Char) : Bool :=
  letter ∈ ['\n', '\r', '\u2028', '\u2029']

/-- The first two parts of `line.split(/:(.*)$/)`: the second one is there if the pattern matches,
which it does at the first colon without a line terminator behind it. -/
def splitField : Text → Text × Option Text
  | [] => ([], none)
  | letter :: rest =>
      if letter = ':' ∧ ¬ rest.any isLineTerminator then ([], some rest)
      else (letter :: (splitField rest).1, (splitField rest).2)

/-- The name and the value of a line. -/
def lineField (line : Text) : Text × Text :=
  (trimText (splitField line).1, trimText ((splitField line).2.getD []))

def parseBulkKeyValues (source : Text) (createId : ℕ → Text) : List KeyValue :=
  (splitLines source).foldl (fun rows line =>
    let (name, value) := lineField line
    if name = [] ∧ value = [] then rows
    else rows ++ [⟨createId rows.length, name, value, true⟩]) []

/-! ## What is expected -/

def fields (rows : List KeyValue) : List (Text × Text) :=
  rows.map fun row => (row.name, row.value)

/-- The fields of the rows that are shown come back, in order, in enabled rows. -/
def RoundTrips (rows : List KeyValue) (createId : ℕ → Text) : Prop :=
  let parsed := parseBulkKeyValues (formatBulkKeyValues rows) createId
  fields parsed = fields (rows.filter KeyValue.isShown) ∧ ∀ row ∈ parsed, row.enabled = true

/-- Fields that the editor can show: without blanks around them and without line feeds, and no
colon in a name. -/
structure IsEditable (row : KeyValue) : Prop where
  nameTrimmed : trimText row.name = row.name
  valueTrimmed : trimText row.value = row.value
  nameFree : '\n' ∉ row.name
  valueFree : '\n' ∉ row.value
  nameColonFree : ':' ∉ row.name

/-! ## Lines -/

theorem splitLines_append {line : Text} (free : '\n' ∉ line) {rest : Text}
    (ends : rest.head? ≠ some '\n') :
    splitLines (line ++ '\n' :: rest) = line :: splitLines rest := by
  induction line with
  | nil => rw [List.nil_append, splitLines, if_pos rfl, if_neg ends]
  | cons letter line ih =>
      rw [List.mem_cons, not_or] at free
      rw [List.cons_append, splitLines, if_neg (Ne.symm free.1), ih free.2]

theorem splitLines_lines {lines : List Text} (free : ∀ line ∈ lines, line ≠ [] ∧ '\n' ∉ line) :
    splitLines (lines.flatMap fun line => line ++ ['\n']) = lines ++ [[]] := by
  induction lines with
  | nil => rfl
  | cons line lines ih =>
      have laterFree : ∀ later ∈ lines, later ≠ [] ∧ '\n' ∉ later :=
        fun later laterMem => free later (List.mem_cons_of_mem _ laterMem)
      have ends : (lines.flatMap fun line => line ++ ['\n']).head? ≠ some '\n' := by
        cases lines with
        | nil => simp
        | cons second others =>
            rcases laterFree second List.mem_cons_self with ⟨notEmpty, noBreak⟩
            cases second with
            | nil => exact absurd rfl notEmpty
            | cons first second =>
                rw [List.mem_cons, not_or] at noBreak
                simpa using Ne.symm noBreak.1
      rw [List.flatMap_cons, List.append_assoc, List.singleton_append,
        splitLines_append (free line List.mem_cons_self).2 ends, ih laterFree, List.cons_append]

theorem formatBulkKeyValues_eq (rows : List KeyValue) :
    formatBulkKeyValues rows =
      ((rows.filter KeyValue.isShown).map formatLine).flatMap fun line => line ++ ['\n'] := by
  unfold formatBulkKeyValues
  generalize (rows.filter KeyValue.isShown).map formatLine = lines
  dsimp only
  cases lines with
  | nil => rfl
  | cons line lines =>
      rw [if_neg (by simp)]
      induction lines generalizing line with
      | nil => simp [List.intercalate]
      | cons second lines ih =>
          have joined : List.intercalate ['\n'] (line :: second :: lines) =
              line ++ '\n' :: List.intercalate ['\n'] (second :: lines) := by
            simp [List.intercalate, List.intersperse]
          have shown : (line :: second :: lines).flatMap (fun line => line ++ ['\n']) =
              line ++ '\n' :: (second :: lines).flatMap fun line => line ++ ['\n'] := by
            rw [List.flatMap_cons, List.append_assoc, List.singleton_append]
          rw [joined, List.append_assoc, List.cons_append, ih second, shown]

/-! ## Fields -/

theorem splitField_of_notMem {text : Text} (noColon : ':' ∉ text) (rest : Text) :
    splitField (text ++ rest) = (text ++ (splitField rest).1, (splitField rest).2) := by
  induction text with
  | nil => rfl
  | cons letter text ih =>
      rw [List.mem_cons, not_or] at noColon
      rw [List.cons_append, splitField, if_neg (fun found => noColon.1 found.1.symm), ih noColon.2]
      rfl

theorem colon_mem_splitField {text : Text} (terminated : text.any isLineTerminator = true) :
    ':' ∈ (splitField (':' :: text)).1 := by
  rw [splitField, if_neg (fun found => found.2 terminated)]
  exact List.mem_cons_self

theorem trimText_space (text : Text) : trimText (' ' :: text) = trimText text := by
  unfold trimText
  rw [List.dropWhile_cons_of_pos (by decide)]

theorem colon_mem_trimText {text : Text} (colonMem : ':' ∈ text) : ':' ∈ trimText text :=
  (Library.mem_trimMatches_iff (by decide : isWhiteSpace ':' = false)).mpr colonMem

theorem lineField_formatLine_iff {row : KeyValue} (editable : IsEditable row) :
    lineField (formatLine row) = (row.name, row.value) ↔
      row.value.any isLineTerminator = false := by
  have blankFree : (' ' :: row.value).any isLineTerminator = row.value.any isLineTerminator := by
    rw [List.any_cons]
    rfl
  unfold lineField formatLine
  rw [List.append_assoc, List.cons_append, List.singleton_append,
    splitField_of_notMem editable.nameColonFree]
  constructor
  · intro same
    by_contra terminated
    rw [Bool.not_eq_false, ← blankFree] at terminated
    have colonMem : ':' ∈ row.name ++ (splitField (':' :: ' ' :: row.value)).1 :=
      List.mem_append_right _ (colon_mem_splitField terminated)
    have inName := colon_mem_trimText colonMem
    rw [(Prod.mk.inj same).1] at inName
    exact editable.nameColonFree inName
  · intro free
    have isSplit : splitField (':' :: ' ' :: row.value) = ([], some (' ' :: row.value)) := by
      rw [splitField, if_pos ⟨rfl, by rw [blankFree, free]; decide⟩]
    rw [isSplit, List.append_nil, Option.getD_some, trimText_space, editable.nameTrimmed,
      editable.valueTrimmed]

theorem lineField_ne_blank {row : KeyValue} (editable : IsEditable row)
    (shown : row.isShown = true) : lineField (formatLine row) ≠ ([], []) := by
  cases terminated : row.value.any isLineTerminator with
  | false =>
      rw [(lineField_formatLine_iff editable).mpr terminated]
      intro blank
      rw [Prod.mk.injEq] at blank
      simp [KeyValue.isShown, blank.1, blank.2] at shown
  | true =>
      intro blank
      have colonMem : ':' ∈ (splitField (formatLine row)).1 := by
        rw [formatLine, List.append_assoc, List.cons_append, List.singleton_append,
          splitField_of_notMem editable.nameColonFree]
        apply List.mem_append_right
        apply colon_mem_splitField
        rw [List.any_cons, terminated, Bool.or_true]
      have inName := colon_mem_trimText colonMem
      have nameBlank : trimText (splitField (formatLine row)).1 = [] := (Prod.mk.inj blank).1
      rw [nameBlank] at inName
      cases inName

/-! ## Rows -/

/-- The rows that are read are the fields of the lines that are not blank. -/
theorem fields_foldl (createId : ℕ → Text) (lines : List Text) (rows : List KeyValue) :
    let parsed := lines.foldl (fun rows line =>
      let (name, value) := lineField line
      if name = [] ∧ value = [] then rows
      else rows ++ [⟨createId rows.length, name, value, true⟩]) rows
    fields parsed = fields rows ++ (lines.map lineField).filter (fun field => field ≠ ([], [])) ∧
      ((∀ row ∈ rows, row.enabled = true) → ∀ row ∈ parsed, row.enabled = true) := by
  induction lines generalizing rows with
  | nil => simp
  | cons line lines ih =>
      rw [List.foldl_cons, List.map_cons, List.filter_cons]
      by_cases blank : lineField line = ([], [])
      · rw [blank]
        simpa using ih rows
      · have notBlank : ¬ ((lineField line).1 = [] ∧ (lineField line).2 = []) :=
          fun both => blank (Prod.ext both.1 both.2)
        dsimp only
        rw [if_neg notBlank, if_pos (by simpa using blank)]
        rcases ih (rows ++ [⟨createId rows.length, (lineField line).1, (lineField line).2, true⟩])
          with ⟨sameFields, keepsEnabled⟩
        refine ⟨?_, ?_⟩
        · rw [sameFields]
          simp [fields]
        · intro enabled
          apply keepsEnabled
          intro row rowMem
          rcases List.mem_append.mp rowMem with older | isNew
          · exact enabled row older
          · rw [List.mem_singleton.mp isNew]

/-- The fields come back exactly if no value that is shown has a line terminator. -/
theorem bulkRoundTrips_iff {rows : List KeyValue}
    (editable : ∀ row ∈ rows.filter KeyValue.isShown, IsEditable row) (createId : ℕ → Text) :
    RoundTrips rows createId ↔
      ∀ row ∈ rows.filter KeyValue.isShown, row.value.any isLineTerminator = false := by
  have shown : ∀ row ∈ rows.filter KeyValue.isShown, row.isShown = true :=
    fun row rowMem => (List.mem_filter.mp rowMem).2
  unfold RoundTrips
  rw [formatBulkKeyValues_eq]
  generalize rows.filter KeyValue.isShown = kept at editable shown
  have linesFree : ∀ line ∈ kept.map formatLine, line ≠ [] ∧ '\n' ∉ line := by
    intro line lineMem
    rcases List.mem_map.mp lineMem with ⟨row, rowMem, rfl⟩
    have isEditable := editable row rowMem
    refine ⟨by simp [formatLine], ?_⟩
    simp [formatLine, isEditable.nameFree, isEditable.valueFree]
  have visible : ((kept.map formatLine ++ [[]]).map lineField).filter
      (fun field => field ≠ ([], [])) = kept.map fun row => lineField (formatLine row) := by
    have blankLine : lineField [] = ([], []) := rfl
    rw [List.map_append, List.filter_append, List.map_singleton, blankLine, List.map_map]
    simp only [ne_eq, not_true_eq_false, decide_false, Bool.false_eq_true, not_false_eq_true,
      List.filter_cons_of_neg, List.filter_nil, List.append_nil]
    apply List.filter_eq_self.mpr
    intro field fieldMem
    rcases List.mem_map.mp fieldMem with ⟨row, rowMem, rfl⟩
    simpa using lineField_ne_blank (editable row rowMem) (shown row rowMem)
  have read := fields_foldl createId (kept.map formatLine ++ [[]]) []
  dsimp only at read
  rw [visible] at read
  unfold parseBulkKeyValues
  rw [splitLines_lines linesFree]
  dsimp only
  rw [read.1, and_iff_left (read.2 (by simp))]
  have noRows : fields [] = [] := rfl
  rw [noRows, List.nil_append, fields, List.map_inj_left]
  constructor
  · intro same row rowMem
    exact (lineField_formatLine_iff (editable row rowMem)).mp (same row rowMem)
  · intro free row rowMem
    exact (lineField_formatLine_iff (editable row rowMem)).mpr (free row rowMem)

def namedRow (value : String) : KeyValue :=
  ⟨"row".toList, "name".toList, value.toList, true⟩

/-- Colons in a value do not matter. -/
theorem colonRow_roundTrips_iff :
    RoundTrips [namedRow "a: b"] (fun _ => []) ↔
      ∀ row ∈ [namedRow "a: b"].filter KeyValue.isShown,
        row.value.any isLineTerminator = false := by
  apply bulkRoundTrips_iff
  intro row rowMem
  rcases List.mem_singleton.mp (List.mem_of_mem_filter rowMem) with rfl
  exact ⟨by decide, by decide, by decide, by decide, by decide⟩

/-- A value with a carriage return becomes a part of the name. -/
theorem returnRow_not_roundTrips :
    IsEditable (namedRow "a\rb") ∧ ¬ RoundTrips [namedRow "a\rb"] fun _ => [] := by
  refine ⟨⟨by decide, by decide, by decide, by decide, by decide⟩, ?_⟩
  rintro ⟨sameFields, _⟩
  exact absurd sameFields (by decide)

end Brunomnia.Editors
