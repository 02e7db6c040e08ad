import Brunomnia.Previews.CsvPreview

/-!
# Previews of written tables

A table whose fields have all been quoted is read back record by record. What the parser makes of a
record does not depend on how it was written, so the limits are about records.
-/

namespace Brunomnia.Previews

open Codegen (Text)

/-! ## Writing -/

def quotedField (cell : Text) : Text :=
  '"' :: (cell.flatMap (fun letter => if letter = '"' then ['"', '"'] else [letter]) ++ ['"'])

def record (delimiter : Char) (cells : List Text) : Text :=
  List.intercalate [delimiter] (cells.map quotedField)

inductive Terminator where
  | lf
  | cr
  | crlf
  deriving DecidableEq

def Terminator.text : Terminator → Text
  | .lf => ['\n']
  | .cr => ['\r']
  | .crlf => ['\r', '\n']

/-- The records of a table with their terminators, and the last one, which has none; it is empty if
the text ends in a terminator. -/
structure WrittenTable where
  terminated : List (List Text × Terminator)
  last : List Text

namespace WrittenTable

def rows (table : WrittenTable) : List (List Text) :=
  table.terminated.map Prod.fst ++ [table.last]

def textFrom (delimiter : Char) (last : List Text) : List (List Text × Terminator) → Text
  | [] => record delimiter last
  | (cells, terminator) :: rest =>
      record delimiter cells ++ (terminator.text ++ textFrom delimiter last rest)

def text (table : WrittenTable) (delimiter : Char) : Text :=
  textFrom delimiter table.last table.terminated

/-- The first record shows the delimiter, or it does not matter. -/
def ShowsDelimiter (table : WrittenTable) (delimiter : Char) : Prop :=
  delimiter = ',' ∨ (∃ first ∈ table.rows.head?, 2 ≤ first.length) ∨
    ∀ cells ∈ table.rows, cells.length ≤ 1

end WrittenTable

def isBlank (cells : List Text) : Bool :=
  cells.all List.isEmpty

/-- A table within the limits, of which blank rows only have to keep to the number of columns. -/
structure WithinLimits (limits : Limits) (table : List (List Text)) : Prop where
  rows : (table.filter fun cells => !isBlank cells).length ≤ limits.rows
  columns : ∀ cells ∈ table, cells.length ≤ limits.columns
  cells : ((table.filter fun cells => !isBlank cells).map List.length).sum ≤ limits.cells

/-- A preview of rows: it keeps to the limits, its rows are those of the table in order and as far
as the columns go, and it says so if it leaves anything out. -/
structure IsPreviewOf (limits : Limits) (table : List (List Text)) (preview : CsvPreview) :
    Prop where
  noError : preview.error = []
  rowLimit : preview.rows.length ≤ limits.rows
  columnLimit : ∀ cells ∈ preview.rows, cells.length ≤ limits.columns
  cellLimit : (preview.rows.map List.length).sum ≤ limits.cells
  rowsOf : preview.rows.Sublist (table.map (List.take limits.columns))
  complete : preview.truncated = false → preview.rows = table.filter fun cells => !isBlank cells
  within : WithinLimits limits table → preview.truncated = false

/-! ## Fields -/

section Fields

variable {limits : Limits} {delimiter : Char} {rest : Text} {state : State}

theorem parse_letters (notDoubled : rest.head? ≠ some '"') (cell : Text)
    (quoted : state.quoted = true) :
    parseFrom limits delimiter false
        (cell.flatMap (fun letter => if letter = '"' then ['"', '"'] else [letter]) ++
          '"' :: rest) state =
      parseFrom limits delimiter false rest
        { state with value := state.value ++ cell, quoted := false } := by
  induction cell generalizing state with
  | nil =>
      rw [List.flatMap_nil, List.nil_append, parseFrom, if_neg (by simp [notDoubled]),
        if_pos rfl, quoted, List.append_nil]
      rfl
  | cons letter cell ih =>
      rw [List.flatMap_cons]
      by_cases isQuote : letter = '"'
      · subst isQuote
        rw [if_pos rfl, List.append_assoc, List.cons_append, List.cons_append, List.nil_append,
          parseFrom, if_pos (by simp [quoted]), parseFrom]
        refine (@ih { state with value := state.value ++ ['"'] } quoted).trans ?_
        simp
      · rw [if_neg isQuote, List.append_assoc, List.cons_append, List.nil_append, parseFrom,
          if_neg (by simp [isQuote]), if_neg isQuote, if_neg (by simp [quoted]),
          if_neg (by simp [quoted])]
        refine (@ih { state with value := state.value ++ [letter] } quoted).trans ?_
        simp

theorem parse_field (notDoubled : rest.head? ≠ some '"') (cell : Text)
    (unquoted : state.quoted = false) (noValue : state.value = []) :
    parseFrom limits delimiter false (quotedField cell ++ rest) state =
      parseFrom limits delimiter false rest { state with value := cell } := by
  unfold quotedField
  rw [List.cons_append, List.append_assoc, List.singleton_append, parseFrom,
    if_neg (by simp [unquoted]), if_pos rfl, parse_letters notDoubled cell (by simp [unquoted])]
  simp [noValue, unquoted]

theorem count_letters {counts : Char → ℕ} (notDoubled : rest.head? ≠ some '"') (cell : Text) :
    countDelimiters false true
        (cell.flatMap (fun letter => if letter = '"' then ['"', '"'] else [letter]) ++
          '"' :: rest) counts =
      countDelimiters false false rest counts := by
  induction cell with
  | nil =>
      rw [List.flatMap_nil, List.nil_append, countDelimiters, if_neg (by simp [notDoubled]),
        if_pos rfl]
      rfl
  | cons letter cell ih =>
      rw [List.flatMap_cons]
      by_cases isQuote : letter = '"'
      · subst isQuote
        rw [if_pos rfl, List.append_assoc, List.cons_append, List.cons_append, List.nil_append,
          countDelimiters, if_pos (by simp), countDelimiters, ih]
      · rw [if_neg isQuote, List.append_assoc, List.cons_append, List.nil_append, countDelimiters,
          if_neg (by simp [isQuote]), if_neg isQuote, if_neg (by simp), if_neg (by simp), ih]

theorem count_field {counts : Char → ℕ} (notDoubled : rest.head? ≠ some '"') (cell : Text) :
    countDelimiters false false (quotedField cell ++ rest) counts =
      countDelimiters false false rest counts := by
  unfold quotedField
  rw [List.cons_append, List.append_assoc, List.singleton_append, countDelimiters,
    if_neg (by simp), if_pos rfl]
  exact count_letters notDoubled cell

end Fields

/-! ## Records -/

theorem ne_quote_of_mem_delimiters {delimiter : Char} (supported : delimiter ∈ delimiters) :
    delimiter ≠ '"' ∧ isLineBreak delimiter = false := by
  simp only [delimiters, List.mem_cons, List.not_mem_nil, or_false] at supported
  rcases supported with rfl | rfl | rfl | rfl <;> decide

theorem record_cons_cons (delimiter : Char) (first second : Text) (cells : List Text) :
    record delimiter (first :: second :: cells) =
      quotedField first ++ delimiter :: record delimiter (second :: cells) := by
  simp [record]

section Records

variable (limits : Limits)

def pushCells (state : State) (cells : List Text) : State :=
  cells.foldl (fun state cell => pushValue limits { state with value := cell }) state

/-- A record without cells is a blank row. -/
def cellsOf (cells : List Text) : List Text :=
  if cells = [] then [[]] else cells

/-- What a record does, however it is written. -/
def afterRecord (state : State) (cells : List Text) : State :=
  pushRow limits (pushCells limits state (cellsOf cells))

def afterRecords : List (List Text) → State → State
  | [], state => state
  | cells :: rest, state =>
      let after := afterRecord limits state cells
      if after.stopped then after else afterRecords rest after

/-- Between two records. -/
structure Clean (state : State) : Prop where
  row : state.row = []
  value : state.value = []
  quoted : state.quoted = false
  stopped : state.stopped = false

variable {limits} {delimiter detected : Char} {rest : Text} {state : State} {cells : List Text}

theorem pushValue_value (state : State) : (pushValue limits state).value = [] := by
  unfold pushValue
  split <;> rfl

theorem pushValue_quoted (state : State) : (pushValue limits state).quoted = state.quoted := by
  unfold pushValue
  split <;> rfl

theorem pushCells_concat (init : List Text) (last : Text) :
    pushCells limits state (init ++ [last]) =
      pushValue limits { pushCells limits state init with value := last } := by
  unfold pushCells
  rw [List.foldl_append]
  rfl

/-- The values of a record, as far as there are columns. -/
theorem pushCells_eq (noValue : state.value = []) (fits : state.row.length ≤ limits.columns) :
    pushCells limits state cells =
      { state with
        row := (state.row ++ cells).take limits.columns
        truncated := state.truncated ||
          decide (limits.columns < state.row.length + cells.length) } := by
  induction cells generalizing state with
  | nil =>
      have notMore : ¬ limits.columns < state.row.length := by omega
      unfold pushCells
      rw [List.foldl_nil, List.append_nil, List.take_of_length_le fits]
      simp [notMore]
  | cons cell cells ih =>
      have step : pushCells limits state (cell :: cells) =
          pushCells limits (pushValue limits { state with value := cell }) cells := rfl
      rw [step]
      unfold pushValue
      dsimp only
      split
      case isTrue room =>
        have later := @ih { state with row := state.row ++ [cell], value := [] } rfl
          (by simp; omega)
        refine later.trans ?_
        rw [List.append_assoc, List.singleton_append]
        simp only [List.length_append, List.length_cons, List.length_nil, noValue]
        congr 3
        apply propext
        omega
      case isFalse full =>
        refine (@ih { state with truncated := true, value := [] } rfl fits).trans ?_
        have more : limits.columns < state.row.length + (cells.length + 1) := by omega
        have alreadyFull : limits.columns ≤ state.row.length := by omega
        dsimp only
        rw [List.take_append_of_le_length alreadyFull, List.take_append_of_le_length alreadyFull]
        simp [more, noValue]

theorem one_le_columns : 1 ≤ limits.columns :=
  le_max_left _ _

theorem parse_record (supported : delimiter ∈ delimiters)
    (detects : detected = delimiter ∨ cells.length ≤ 1) (notDoubled : rest.head? ≠ some '"')
    {init : List Text} {last : Text} (cellsEq : cells = init ++ [last])
    (unquoted : state.quoted = false) (noValue : state.value = []) :
    parseFrom limits detected false (record delimiter cells ++ rest) state =
      parseFrom limits detected false rest
        { pushCells limits state init with value := last } := by
  induction init generalizing state cells with
  | nil =>
      subst cellsEq
      have single : record delimiter ([] ++ [last]) = quotedField last := by simp [record]
      rw [single, parse_field notDoubled last unquoted noValue]
      rfl
  | cons first init ih =>
      have isDelimiter : detected = delimiter := by
        rcases detects with isDelimiter | short
        · exact isDelimiter
        · simp [cellsEq] at short
      rcases ne_quote_of_mem_delimiters supported with ⟨notQuote, notBreak⟩
      rcases List.exists_cons_of_ne_nil (List.append_ne_nil_of_right_ne_nil init
        (List.cons_ne_nil last [])) with ⟨second, others, split⟩
      rw [List.cons_append, split] at cellsEq
      subst isDelimiter
      rw [cellsEq, record_cons_cons, List.append_assoc,
        parse_field (by simpa using notQuote) first unquoted noValue, List.cons_append, parseFrom,
        if_neg (by simp [notQuote]), if_neg notQuote, if_pos (by simp [unquoted]),
        ih (.inl rfl) split.symm (by rw [pushValue_quoted]; exact unquoted) (pushValue_value _)]
      rfl

/-- A blank row changes nothing, so a line break behind a record may be there or not. -/
theorem afterRecord_blank (clean : Clean state) : afterRecord limits state [] = state := by
  have columns := @one_le_columns limits
  unfold afterRecord cellsOf
  rw [if_pos rfl, pushCells_eq clean.value (by simp [clean.row])]
  unfold pushRow
  rw [if_pos]
  · rcases clean with ⟨row, value, quoted, stopped⟩
    cases state
    simp only at row value
    subst row value
    simp
    omega
  · intro cell cellMem
    have cellEq := List.mem_of_mem_take cellMem
    simpa [clean.row] using cellEq

theorem pushValue_eq_pushCells (noValue : state.value = []) :
    pushValue limits state = pushCells limits state [[]] := by
  unfold pushCells
  rw [List.foldl_cons, List.foldl_nil]
  congr 1
  cases state
  simp only at noValue
  rw [noValue]

theorem parse_lineBreak (isDelimiter : detected ∈ delimiters) {character : Char}
    (isBreak : isLineBreak character = true) (unquoted : state.quoted = false) :
    parseFrom limits detected false (character :: rest) state =
      if (pushRow limits (pushValue limits state)).stopped then
        pushRow limits (pushValue limits state)
      else parseFrom limits detected (character = '\r' ∧ rest.head? = some '\n') rest
        (pushRow limits (pushValue limits state)) := by
  have notQuote : character ≠ '"' := by
    rintro rfl
    revert isBreak
    decide
  have different : character ≠ detected := by
    rintro rfl
    rw [(ne_quote_of_mem_delimiters isDelimiter).2] at isBreak
    cases isBreak
  rw [parseFrom, if_neg (by simp [notQuote]), if_neg notQuote, if_neg (by simp [different]),
    if_pos (by simp [unquoted, isBreak])]

theorem parse_skipped (isDelimiter : detected ∈ delimiters) (clean : Clean state) :
    parseFrom limits detected (decide (rest.head? = some '\n')) rest state =
      parseFrom limits detected false rest state := by
  cases rest with
  | nil => rfl
  | cons character rest =>
      by_cases isLineFeed : character = '\n'
      · subst isLineFeed
        have blank := @afterRecord_blank limits state clean
        unfold afterRecord cellsOf at blank
        rw [if_pos rfl, ← pushValue_eq_pushCells clean.value] at blank
        rw [parse_lineBreak isDelimiter (by decide) clean.quoted, blank,
          if_neg (by simp [clean.stopped])]
        simp [parseFrom]
      · simp [isLineFeed]

/-- A record up to its terminator, as the values that are pushed. -/
theorem parse_cells (supported : delimiter ∈ delimiters)
    (detects : detected = delimiter ∨ cells.length ≤ 1) (notDoubled : rest.head? ≠ some '"')
    (clean : Clean state) :
    ∃ before, parseFrom limits detected false (record delimiter cells ++ rest) state =
        parseFrom limits detected false rest before ∧
      before.quoted = false ∧ before.stopped = false ∧
      pushValue limits before = pushCells limits state (cellsOf cells) ∧
      (before.value = [] ∧ before.row = [] → before = state) := by
  have quotedEq : ∀ init : List Text, (pushCells limits state init).quoted = false := by
    intro init
    rw [pushCells_eq clean.value (by simp [clean.row])]
    exact clean.quoted
  have stoppedEq : ∀ init : List Text, (pushCells limits state init).stopped = false := by
    intro init
    rw [pushCells_eq clean.value (by simp [clean.row])]
    exact clean.stopped
  rcases List.eq_nil_or_concat cells with rfl | ⟨init, last, cellsEq⟩
  · exact ⟨state, rfl, clean.quoted, clean.stopped, pushValue_eq_pushCells clean.value,
      fun _ => rfl⟩
  · rw [List.concat_eq_append] at cellsEq
    refine ⟨_, parse_record supported detects notDoubled cellsEq clean.quoted clean.value,
      quotedEq init, stoppedEq init, ?_, ?_⟩
    · rw [cellsOf, if_neg (by simp [cellsEq]), cellsEq, pushCells_concat]
    · rintro ⟨noLast, noRow⟩
      have columns := @one_le_columns limits
      dsimp only at noLast noRow
      rw [pushCells_eq clean.value (by simp [clean.row])] at noRow
      simp only [clean.row, List.nil_append, List.take_eq_nil_iff] at noRow
      have noInit : init = [] := by
        rcases noRow with noColumns | noInit
        · omega
        · exact noInit
      subst noInit noLast
      cases state
      have noValue := clean.value
      simp only at noValue
      rw [pushCells, List.foldl_nil, noValue]

theorem afterRecord_clean (clean : Clean state)
    (goesOn : (afterRecord limits state cells).stopped = false) :
    Clean (afterRecord limits state cells) := by
  unfold afterRecord at goesOn ⊢
  rw [pushCells_eq clean.value (by simp [clean.row])] at goesOn ⊢
  unfold pushRow at goesOn ⊢
  split at goesOn
  case isTrue blank =>
    rw [if_pos blank]
    exact ⟨rfl, clean.value, clean.quoted, clean.stopped⟩
  case isFalse notBlank =>
    rw [if_neg notBlank]
    split at goesOn
    case isTrue => cases goesOn
    case isFalse fits =>
      rw [if_neg fits]
      exact ⟨rfl, clean.value, clean.quoted, clean.stopped⟩

theorem parse_terminated (supported : delimiter ∈ delimiters)
    (isDelimiter : detected ∈ delimiters)
    (detects : detected = delimiter ∨ cells.length ≤ 1) (clean : Clean state)
    (terminator : Terminator) :
    parseFrom limits detected false (record delimiter cells ++ (terminator.text ++ rest)) state =
      if (afterRecord limits state cells).stopped then afterRecord limits state cells
      else parseFrom limits detected false rest (afterRecord limits state cells) := by
  have notDoubled : (terminator.text ++ rest).head? ≠ some '"' := by
    cases terminator <;> simp [Terminator.text]
  rcases @parse_cells limits delimiter detected _ state cells supported detects notDoubled clean
    with ⟨before, parsed, unquoted, _, pushed, _⟩
  have after : pushRow limits (pushValue limits before) = afterRecord limits state cells := by
    rw [pushed]
    rfl
  rw [parsed]
  have goesOn : ¬ (afterRecord limits state cells).stopped = true →
      Clean (afterRecord limits state cells) := fun notStopped =>
    afterRecord_clean clean (by simpa using notStopped)
  cases terminator with
  | lf =>
      rw [Terminator.text, List.cons_append, List.nil_append,
        parse_lineBreak isDelimiter (by decide) unquoted, after]
      simp
  | cr =>
      rw [Terminator.text, List.cons_append, List.nil_append,
        parse_lineBreak isDelimiter (by decide) unquoted, after]
      split
      case isTrue => rfl
      case isFalse notStopped =>
        simp only [true_and]
        exact parse_skipped isDelimiter (goesOn notStopped)
  | crlf =>
      rw [Terminator.text, List.cons_append, List.cons_append, List.nil_append,
        parse_lineBreak isDelimiter (by decide) unquoted, after]
      split
      case isTrue => rfl
      case isFalse => simp [parseFrom]

theorem afterRecord_quoted (clean : Clean state) :
    (afterRecord limits state cells).quoted = false := by
  unfold afterRecord pushRow
  rw [pushCells_eq clean.value (by simp [clean.row])]
  split
  · exact clean.quoted
  · split
    · exact clean.quoted
    · exact clean.quoted

/-- The text of a table as its records. -/
theorem parse_textFrom (supported : delimiter ∈ delimiters) (isDelimiter : detected ∈ delimiters)
    {last : List Text} {terminated : List (List Text × Terminator)}
    (detects : detected = delimiter ∨
      ∀ cells ∈ terminated.map Prod.fst ++ [last], cells.length ≤ 1)
    (clean : Clean state) :
    (parseFrom limits detected false (WrittenTable.textFrom delimiter last terminated)
        state).quoted = false ∧
      finish limits (parseFrom limits detected false
        (WrittenTable.textFrom delimiter last terminated) state) =
          afterRecords limits (terminated.map Prod.fst ++ [last]) state := by
  induction terminated generalizing state with
  | nil =>
      have lastDetects : detected = delimiter ∨ last.length ≤ 1 :=
        detects.imp id fun short => short last (by simp)
      rcases @parse_cells limits delimiter detected [] state last supported lastDetects (by simp)
        clean with ⟨before, parsed, unquoted, unstopped, pushed, unchanged⟩
      rw [List.append_nil] at parsed
      have whole : afterRecords limits [last] state = afterRecord limits state last := by
        simp [afterRecords]
      rw [WrittenTable.textFrom, parsed, List.map_nil, List.nil_append, whole, parseFrom]
      refine ⟨unquoted, ?_⟩
      unfold finish
      split
      case isTrue =>
        rw [pushed]
        rfl
      case isFalse nothing =>
        have sameState := unchanged (by simpa [unstopped] using nothing)
        subst sameState
        unfold afterRecord
        rw [← pushed, pushValue_eq_pushCells clean.value]
        exact (afterRecord_blank clean).symm
  | cons entry terminated ih =>
      rcases entry with ⟨cells, terminator⟩
      rw [List.map_cons, List.cons_append] at detects ⊢
      have cellsDetects : detected = delimiter ∨ cells.length ≤ 1 :=
        detects.imp id fun short => short cells (by simp)
      rw [WrittenTable.textFrom, parse_terminated supported isDelimiter cellsDetects clean,
        afterRecords]
      by_cases stops : (afterRecord limits state cells).stopped = true
      · rw [if_pos stops]
        refine ⟨afterRecord_quoted clean, ?_⟩
        simp [finish, stops]
      · rw [if_neg stops]
        have cleanAfter := afterRecord_clean clean (by simpa using stops)
        have later := ih (detects.imp id fun short => fun other otherMem =>
          short other (List.mem_cons_of_mem _ otherMem)) cleanAfter
        simp only [stops]
        exact later

/-! ## Limits -/

/-- What one record can do: it is blank as far as the columns go, it becomes a row, or it does not
fit. -/
theorem afterRecord_cases (clean : Clean state) :
    (isBlank (cells.take limits.columns) = true ∧
      afterRecord limits state cells =
        { state with truncated := state.truncated || decide (limits.columns < cells.length) }) ∨
    (isBlank (cells.take limits.columns) = false ∧ state.rows.length < limits.rows ∧
      state.cells + (cells.take limits.columns).length ≤ limits.cells ∧
      afterRecord limits state cells =
        { state with
          rows := state.rows ++ [cells.take limits.columns]
          cells := state.cells + (cells.take limits.columns).length
          truncated := state.truncated || decide (limits.columns < cells.length) }) ∨
    (isBlank (cells.take limits.columns) = false ∧
      (limits.rows ≤ state.rows.length ∨
        limits.cells < state.cells + (cells.take limits.columns).length) ∧
      (afterRecord limits state cells).stopped = true ∧
      (afterRecord limits state cells).truncated = true ∧
      (afterRecord limits state cells).rows = state.rows ∧
      (afterRecord limits state cells).cells = state.cells) := by
  have columns := @one_le_columns limits
  have blankIff : (∀ cell ∈ (cellsOf cells).take limits.columns, cell = []) ↔
      isBlank (cells.take limits.columns) = true := by
    unfold cellsOf isBlank
    split
    case isTrue noCells =>
      subst noCells
      simp only [List.take_nil, List.all_nil, iff_true]
      intro cell cellMem
      simpa using List.mem_of_mem_take cellMem
    case isFalse => simp
  have sameLimit : limits.columns < (cellsOf cells).length ↔ limits.columns < cells.length := by
    unfold cellsOf
    split
    case isTrue noCells =>
      subst noCells
      simp
      omega
    case isFalse => rfl
  have pushed : pushCells limits state (cellsOf cells) =
      { state with
        row := (cellsOf cells).take limits.columns
        truncated := state.truncated || decide (limits.columns < cells.length) } := by
    rw [pushCells_eq clean.value (by simp [clean.row])]
    simp only [clean.row, List.nil_append, List.length_nil, Nat.zero_add, sameLimit]
  unfold afterRecord
  rw [pushed]
  unfold pushRow
  by_cases blank : isBlank (cells.take limits.columns) = true
  · left
    refine ⟨blank, ?_⟩
    rw [if_pos (blankIff.mpr blank)]
    cases state
    have noRow := clean.row
    simp only at noRow
    rw [noRow]
  · right
    have someCells : cellsOf cells = cells := by
      unfold cellsOf
      rw [if_neg]
      rintro rfl
      exact blank (by simp [isBlank])
    rw [if_neg (fun allEmpty => blank (blankIff.mp allEmpty)), someCells]
    rw [Bool.not_eq_true] at blank
    dsimp only
    split
    case isTrue full =>
      right
      exact ⟨blank, full, rfl, rfl, rfl, rfl⟩
    case isFalse fits =>
      left
      refine ⟨blank, by omega, by omega, ?_⟩
      cases state
      have noRow := clean.row
      simp only at noRow
      rw [noRow]

/-- What the rows have to do with the records up to them. -/
structure RowsSoFar (limits : Limits) (done : List (List Text)) (state : State) : Prop where
  rowLimit : state.rows.length ≤ limits.rows
  columnLimit : ∀ cells ∈ state.rows, cells.length ≤ limits.columns
  counted : state.cells = (state.rows.map List.length).sum
  cellLimit : state.cells ≤ limits.cells
  rowsOf : state.rows.Sublist (done.map (List.take limits.columns))
  complete : state.truncated = false → state.rows = done.filter fun cells => !isBlank cells
  within : (∀ cells ∈ done, cells.length ≤ limits.columns) → state.stopped = false →
    state.truncated = false

theorem rowsSoFar_initial (limits : Limits) : RowsSoFar limits [] initialState := by
  refine ⟨Nat.zero_le _, by simp [initialState], rfl, Nat.zero_le _, List.Sublist.refl _,
    fun _ => rfl, fun _ _ => rfl⟩

variable {done remaining : List (List Text)}

theorem RowsSoFar.nextRecord (soFar : RowsSoFar limits done state) (clean : Clean state) :
    RowsSoFar limits (done ++ [cells]) (afterRecord limits state cells) := by
  have extended : state.rows.Sublist ((done ++ [cells]).map (List.take limits.columns)) := by
    rw [List.map_append]
    exact soFar.rowsOf.trans (List.sublist_append_left _ _)
  have columnsBefore : (∀ other ∈ done ++ [cells], other.length ≤ limits.columns) →
      state.truncated = false ∧ ¬ limits.columns < cells.length := by
    intro within
    refine ⟨soFar.within (fun other otherMem => within other (List.mem_append_left _ otherMem))
      clean.stopped, ?_⟩
    have width := within cells (by simp)
    omega
  rcases @afterRecord_cases limits state cells clean with
    ⟨blank, afterEq⟩ | ⟨notBlank, room, space, afterEq⟩ | ⟨notBlank, _, stops, truncates, rowsEq,
      cellsEq⟩
  · rw [afterEq]
    refine ⟨soFar.rowLimit, soFar.columnLimit, soFar.counted, soFar.cellLimit,
      extended, ?_, ?_⟩
    · intro whole
      rw [Bool.or_eq_false_iff, decide_eq_false_iff_not] at whole
      rw [List.take_of_length_le (by omega)] at blank
      rw [List.filter_append, ← soFar.complete whole.1]
      simp [blank]
    · intro within _
      rcases columnsBefore within with ⟨whole, fits⟩
      simp [whole, fits]
  · rw [afterEq]
    refine ⟨?_, ?_, ?_, space, ?_, ?_, ?_⟩
    · rw [List.length_append, List.length_singleton]
      omega
    · intro other otherMem
      rw [List.mem_append, List.mem_singleton] at otherMem
      rcases otherMem with otherMem | rfl
      · exact soFar.columnLimit other otherMem
      · rw [List.length_take]
        omega
    · rw [List.map_append, List.sum_append, soFar.counted]
      simp
    · rw [List.map_append]
      exact soFar.rowsOf.append (List.Sublist.refl _)
    · intro whole
      rw [Bool.or_eq_false_iff, decide_eq_false_iff_not] at whole
      rw [List.take_of_length_le (by omega)] at notBlank ⊢
      rw [List.filter_append, ← soFar.complete whole.1]
      simp [notBlank]
    · intro within _
      rcases columnsBefore within with ⟨whole, fits⟩
      simp [whole, fits]
  · refine ⟨?_, ?_, ?_, ?_, ?_, ?_, ?_⟩
    · rw [rowsEq]
      exact soFar.rowLimit
    · rw [rowsEq]
      exact soFar.columnLimit
    · rw [rowsEq, cellsEq]
      exact soFar.counted
    · rw [cellsEq]
      exact soFar.cellLimit
    · rw [rowsEq]
      exact extended
    · intro whole
      rw [truncates] at whole
      cases whole
    · intro _ goesOn
      rw [stops] at goesOn
      cases goesOn

theorem RowsSoFar.of_stopped (soFar : RowsSoFar limits done state)
    (stopped : state.stopped = true) (truncated : state.truncated = true)
    (later : List (List Text)) : RowsSoFar limits (done ++ later) state := by
  refine ⟨soFar.rowLimit, soFar.columnLimit, soFar.counted, soFar.cellLimit, ?_, ?_, ?_⟩
  · rw [List.map_append]
    exact soFar.rowsOf.trans (List.sublist_append_left _ _)
  · intro whole
    rw [truncated] at whole
    cases whole
  · intro _ goesOn
    rw [stopped] at goesOn
    cases goesOn

theorem truncated_of_stopped (clean : Clean state)
    (stopped : (afterRecord limits state cells).stopped = true) :
    (afterRecord limits state cells).truncated = true := by
  rcases @afterRecord_cases limits state cells clean with ⟨_, afterEq⟩ | ⟨_, _, _, afterEq⟩ |
    ⟨_, _, _, truncates, _⟩
  · rw [afterEq] at stopped
    exact absurd stopped (by simp [clean.stopped])
  · rw [afterEq] at stopped
    exact absurd stopped (by simp [clean.stopped])
  · exact truncates

theorem RowsSoFar.allRecords (soFar : RowsSoFar limits done state) (clean : Clean state) :
    RowsSoFar limits (done ++ remaining) (afterRecords limits remaining state) := by
  induction remaining generalizing done state with
  | nil =>
      rw [List.append_nil]
      exact soFar
  | cons cells remaining ih =>
      have step := @RowsSoFar.nextRecord limits state cells done soFar clean
      have split : done ++ cells :: remaining = (done ++ [cells]) ++ remaining := by simp
      rw [afterRecords, split]
      by_cases stops : (afterRecord limits state cells).stopped = true
      · simp only [stops, if_true]
        exact step.of_stopped stops (truncated_of_stopped clean stops) remaining
      · simp only [stops]
        exact ih step (afterRecord_clean clean (by simpa using stops))

/-- Records within the limits all fit. -/
theorem RowsSoFar.goesOn (soFar : RowsSoFar limits done state) (clean : Clean state)
    (fits : WithinLimits limits (done ++ remaining)) :
    (afterRecords limits remaining state).stopped = false := by
  induction remaining generalizing done state with
  | nil => exact clean.stopped
  | cons cells remaining ih =>
      have step := @RowsSoFar.nextRecord limits state cells done soFar clean
      have split : done ++ cells :: remaining = (done ++ [cells]) ++ remaining := by simp
      have notStopped : (afterRecord limits state cells).stopped = false := by
        rcases @afterRecord_cases limits state cells clean with ⟨_, afterEq⟩ | ⟨_, _, _, afterEq⟩ |
          ⟨notBlank, full, _⟩
        · rw [afterEq]
          exact clean.stopped
        · rw [afterEq]
          exact clean.stopped
        · have whole := soFar.within (fun other otherMem =>
            fits.columns other (List.mem_append_left _ otherMem)) clean.stopped
          have rowsEq := soFar.complete whole
          have width := fits.columns cells (by simp)
          rw [List.take_of_length_le width] at notBlank full
          have rowCount := fits.rows
          have cellCount := fits.cells
          rw [List.filter_append, List.filter_cons_of_pos (by simp [notBlank]), ← rowsEq]
            at rowCount cellCount
          rw [List.length_append, List.length_cons] at rowCount
          rw [List.map_append, List.sum_append, List.map_cons, List.sum_cons,
            ← soFar.counted] at cellCount
          omega
      rw [afterRecords, notStopped]
      rw [split] at fits
      exact ih step (afterRecord_clean clean notStopped) fits

/-! ## Detecting the delimiter -/

theorem count_record {counts : Char → ℕ} (supported : delimiter ∈ delimiters)
    (ends : ∀ character ∈ rest.head?, isLineBreak character = true) (cells : List Text) :
    countDelimiters false false (record delimiter cells ++ rest) counts =
      Function.update counts delimiter (counts delimiter + (cells.length - 1)) := by
  have notDoubled : rest.head? ≠ some '"' := by
    intro isQuote
    have isBreak := ends '"' isQuote
    revert isBreak
    decide
  have stops : ∀ counts : Char → ℕ, countDelimiters false false rest counts = counts := by
    intro counts
    cases rest with
    | nil => rfl
    | cons character rest =>
        have isBreak := ends character rfl
        have notQuote : character ≠ '"' := by
          rintro rfl
          exact notDoubled rfl
        rw [countDelimiters, if_neg (by simp [notQuote]), if_neg notQuote,
          if_pos (by simp [isBreak])]
  rcases ne_quote_of_mem_delimiters supported with ⟨notQuote, notBreak⟩
  induction cells generalizing counts with
  | nil => simp [record, stops]
  | cons first cells ih =>
      cases cells with
      | nil =>
          have single : record delimiter [first] = quotedField first := by simp [record]
          rw [single, count_field notDoubled, stops]
          simp
      | cons second cells =>
          rw [record_cons_cons, List.append_assoc, List.cons_append,
            count_field (by simpa using notQuote), countDelimiters, if_neg (by simp [notQuote]),
            if_neg notQuote, if_neg (by simp [notBreak]), if_pos (by simp [supported]), ih]
          simp only [Function.update_self, Function.update_idem, List.length_cons]
          congr 1
          omega

theorem head?_textFrom (last : List Text) (terminated : List (List Text × Terminator)) :
    ∃ first rest, (∀ character ∈ rest.head?, isLineBreak character = true) ∧
      (terminated.map Prod.fst ++ [last]).head? = some first ∧
      WrittenTable.textFrom delimiter last terminated = record delimiter first ++ rest := by
  cases terminated with
  | nil => exact ⟨last, [], by simp, rfl, (List.append_nil _).symm⟩
  | cons entry terminated =>
      refine ⟨entry.1, _, ?_, rfl, rfl⟩
      cases entry.2 <;> simp [Terminator.text, isLineBreak]

theorem detectDelimiter_text (supported : delimiter ∈ delimiters) (table : WrittenTable) :
    ∃ first, table.rows.head? = some first ∧ detectDelimiter (table.text delimiter) =
      if first.length ≤ 1 then ',' else delimiter := by
  rcases @head?_textFrom delimiter table.last table.terminated with ⟨first, rest, ends, isFirst,
    textEq⟩
  refine ⟨first, isFirst, ?_⟩
  unfold WrittenTable.text detectDelimiter
  rw [textEq, count_record supported ends, Nat.zero_add]
  split
  case isTrue short =>
    have none : first.length - 1 = 0 := by omega
    rw [none, Function.update_eq_self_iff.mpr rfl]
    decide
  case isFalse long =>
    have some : 0 < first.length - 1 := by omega
    generalize first.length - 1 = count at some
    simp only [delimiters, List.mem_cons, List.not_mem_nil, or_false] at supported
    rcases supported with rfl | rfl | rfl | rfl <;>
      simp [delimiters, Function.update, some]

end Records

/-- A written table whose first record shows the delimiter is previewed within the limits. -/
theorem parseCsvPreview_isPreviewOf {delimiter : Char} (supported : delimiter ∈ delimiters)
    (table : WrittenTable) (shown : table.ShowsDelimiter delimiter) (limits : Limits) :
    IsPreviewOf limits table.rows (parseCsvPreview limits (table.text delimiter)) := by
  rcases detectDelimiter_text supported table with ⟨first, isFirst, detected⟩
  have isDelimiter : detectDelimiter (table.text delimiter) ∈ delimiters := by
    rw [detected]
    split
    · decide
    · exact supported
  have detects : detectDelimiter (table.text delimiter) = delimiter ∨
      ∀ cells ∈ table.rows, cells.length ≤ 1 := by
    rcases shown with isComma | ⟨other, isOther, long⟩ | short
    · left
      rw [detected, isComma]
      exact ite_self _
    · left
      rw [isFirst, Option.mem_some_iff] at isOther
      subst isOther
      rw [detected, if_neg (by omega)]
    · exact .inr short
  have clean : Clean initialState := ⟨rfl, rfl, rfl, rfl⟩
  rcases @parse_textFrom limits delimiter _ initialState supported isDelimiter table.last
    table.terminated detects clean with ⟨unquoted, finished⟩
  have soFar := @RowsSoFar.allRecords limits initialState [] table.rows
    (rowsSoFar_initial limits) clean
  have previewEq : parseCsvPreview limits (table.text delimiter) =
      { delimiter := detectDelimiter (table.text delimiter)
        error := []
        rows := (afterRecords limits table.rows initialState).rows
        truncated := (afterRecords limits table.rows initialState).truncated } := by
    unfold parseCsvPreview
    unfold WrittenTable.text at unquoted finished ⊢
    simp only [unquoted, finished]
    rfl
  rw [previewEq]
  refine ⟨rfl, soFar.rowLimit, soFar.columnLimit, ?_, soFar.rowsOf, soFar.complete, ?_⟩
  · rw [← soFar.counted]
    exact soFar.cellLimit
  · intro fits
    exact soFar.within fits.columns
      (RowsSoFar.goesOn (rowsSoFar_initial limits) clean fits)

/-- A title over two columns. -/
def titledTable : WrittenTable where
  terminated := [([['t']], .lf)]
  last := [['a'], ['b']]

/-- The semicolon is not detected, and the two cells become one. -/
theorem titledTable_not_previewed :
    ';' ∈ delimiters ∧ ¬ IsPreviewOf ⟨none, none, none⟩ titledTable.rows
      (parseCsvPreview ⟨none, none, none⟩ (titledTable.text ';')) := by
  refine ⟨by decide, ?_⟩
  intro previews
  have complete := previews.complete (by decide)
  revert complete
  decide

theorem titledTable_previewed :
    IsPreviewOf ⟨none, none, none⟩ titledTable.rows
      (parseCsvPreview ⟨none, none, none⟩ (titledTable.text ',')) :=
  parseCsvPreview_isPreviewOf (by decide) titledTable (.inl rfl) _

end Brunomnia.Previews
