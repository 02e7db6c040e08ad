import Brunomnia.Runner.DataRows

/-!
# Tables that come back

A line feed within a cell cuts its row into lines none of which is blank, so the rows of a table
are counted right only if there is none. Without one, every line is a row with its cells.
-/

namespace Brunomnia.Runner

open Codegen (Text trimText)
open Library

/-! ## Records -/

theorem foldl_define {entries : List (Text × Text)} (nodup : (entries.map Prod.fst).Nodup)
    (record : Variables) :
    (∀ entry ∈ entries, entries.foldl (fun record entry => record.define entry.1 entry.2) record
        entry.1 = some entry.2) ∧
      ∀ key, key ∉ entries.map Prod.fst →
        entries.foldl (fun record entry => record.define entry.1 entry.2) record key =
          record key := by
  induction entries generalizing record with
  | nil => simp
  | cons first entries ih =>
      rw [List.map_cons, List.nodup_cons] at nodup
      rcases ih nodup.2 (record.define first.1 first.2) with ⟨found, others⟩
      constructor
      · intro entry mem
        rw [List.foldl_cons]
        rcases List.mem_cons.mp mem with rfl | mem
        · rw [others _ nodup.1]
          simp [Variables.define]
        · exact found entry mem
      · intro key notMem
        rw [List.map_cons, List.mem_cons, not_or] at notMem
        rw [List.foldl_cons, others key notMem.2]
        simp [Variables.define, notMem.1]

theorem isRecordOf_fromEntries {headers row : List Text} (distinct : headers.Nodup)
    (sameWidth : row.length = headers.length) :
    IsRecordOf headers row (fromEntries (headers.zip row)) := by
  have keys : (headers.zip row).map Prod.fst = headers :=
    List.map_fst_zip (Nat.le_of_eq sameWidth.symm)
  have folded := @foldl_define (headers.zip row) (by rwa [keys]) noVariables
  rw [keys] at folded
  exact ⟨folded.1, folded.2⟩

theorem entries_eq_zip {headers row : List Text} (sameWidth : row.length = headers.length) :
    (headers.zipIdx.map fun header => (header.1, (row[header.2]?).getD [])) =
      headers.zip row := by
  apply List.ext_getElem
  · simp [sameWidth]
  · intro index inHeaders inZip
    have inRow : index < row.length := by
      rw [List.length_zip] at inZip
      omega
    simp [List.getElem?_eq_getElem inRow]

/-! ## Blank lines -/

theorem trimText_eq_nil_iff {text : Text} :
    trimText text = [] ↔ ∀ letter ∈ text, isWhiteSpace letter = true := by
  unfold trimText
  rw [List.reverse_eq_nil_iff, List.dropWhile_eq_nil_iff]
  simp only [List.mem_reverse]
  constructor
  · intro blank letter mem
    rw [← List.takeWhile_append_dropWhile (p := isWhiteSpace) (l := text)] at mem
    rcases List.mem_append.mp mem with mem | mem
    · exact List.mem_takeWhile_imp mem
    · exact blank letter mem
  · exact fun blank letter mem => blank letter ((List.dropWhile_sublist _).mem mem)

theorem trimText_ne_nil_iff {text : Text} :
    trimText text ≠ [] ↔ ∃ letter ∈ text, isWhiteSpace letter = false := by
  rw [Ne, trimText_eq_nil_iff]
  push Not
  simp

/-- The lines of a text that are not blank. -/
def fullLines (text : Text) : List Text :=
  (splitLines text).filter fun line => trimText line ≠ []

theorem mem_splitLines {text : Text} {letter : Char} (mem : letter ∈ text)
    (visible : isWhiteSpace letter = false) : ∃ line ∈ splitLines text, letter ∈ line := by
  have notReturn : letter ≠ '\r' := by
    rintro rfl
    revert visible
    decide
  have notFeed : letter ≠ '\n' := by
    rintro rfl
    revert visible
    decide
  fun_induction splitLines text with
  | case1 => cases mem
  | case2 rest ih =>
      simp only [List.mem_cons, notReturn, notFeed, false_or] at mem
      rcases ih mem with ⟨line, lineMem, inLine⟩
      exact ⟨line, List.mem_cons_of_mem _ lineMem, inLine⟩
  | case3 rest ih =>
      simp only [List.mem_cons, notFeed, false_or] at mem
      rcases ih mem with ⟨line, lineMem, inLine⟩
      exact ⟨line, List.mem_cons_of_mem _ lineMem, inLine⟩
  | case4 first rest _ _ ih =>
      rcases List.mem_cons.mp mem with rfl | mem
      · exact ⟨_, List.mem_cons_self, List.mem_cons_self⟩
      · rcases ih mem with ⟨line, lineMem, inLine⟩
        rw [← headD_cons_tail_splitLines] at lineMem
        rcases List.mem_cons.mp lineMem with rfl | lineMem
        · exact ⟨_, List.mem_cons_self, List.mem_cons_of_mem _ inLine⟩
        · exact ⟨line, List.mem_cons_of_mem _ lineMem, inLine⟩

theorem fullLines_length_pos {text : Text} (shows : ∃ letter ∈ text, isWhiteSpace letter = false) :
    1 ≤ (fullLines text).length := by
  rcases shows with ⟨letter, mem, visible⟩
  rcases mem_splitLines mem visible with ⟨line, lineMem, inLine⟩
  apply List.length_pos_of_mem (a := line)
  rw [fullLines, List.mem_filter, decide_eq_true_eq, trimText_ne_nil_iff]
  exact ⟨lineMem, letter, inLine, visible⟩

theorem fullLines_single {text : Text} (single : '\n' ∉ text)
    (shows : ∃ letter ∈ text, isWhiteSpace letter = false) : fullLines text = [text] := by
  rw [fullLines, splitLines_single single]
  simp [trimText_ne_nil_iff.mpr shows]

theorem fullLines_length_two {before after : Text}
    (showsBefore : ∃ letter ∈ before, isWhiteSpace letter = false)
    (showsAfter : ∃ letter ∈ after, isWhiteSpace letter = false) :
    2 ≤ (fullLines (before ++ '\n' :: after)).length := by
  have behind := fullLines_length_pos showsAfter
  by_cases isReturn : before.getLast? = some '\r'
  · rcases List.getLast?_eq_some_iff.mp isReturn with ⟨start, rfl⟩
    have showsStart : ∃ letter ∈ start, isWhiteSpace letter = false := by
      rcases showsBefore with ⟨letter, mem, visible⟩
      rcases List.mem_append.mp mem with mem | mem
      · exact ⟨letter, mem, visible⟩
      · rw [List.mem_singleton] at mem
        rw [mem] at visible
        exact absurd visible (by decide)
    have front := fullLines_length_pos showsStart
    rw [fullLines, List.append_assoc, List.singleton_append, splitLines_crlf, List.filter_append,
      List.length_append]
    exact Nat.add_le_add front behind
  · have front := fullLines_length_pos showsBefore
    rw [fullLines, splitLines_lf isReturn, List.filter_append, List.length_append]
    exact Nat.add_le_add front behind

/-! ## Lines of a table -/

theorem mem_csvCell {cell : Text} {letter : Char} (mem : letter ∈ cell) :
    letter ∈ csvCell cell := by
  unfold csvCell
  split
  · simp only [List.mem_append, List.mem_flatMap]
    refine Or.inl (Or.inr ⟨letter, mem, ?_⟩)
    split <;> simp_all
  · exact mem

theorem exists_csvCell_in_csvLine {cells : List Text} {cell : Text} (mem : cell ∈ cells) :
    ∃ before after, csvLine cells = before ++ csvCell cell ++ after := by
  induction cells with
  | nil => cases mem
  | cons first cells ih =>
      by_cases isLast : cells = []
      · subst isLast
        rw [List.mem_singleton] at mem
        exact ⟨[], [], by rw [csvLine_single, mem, List.nil_append, List.append_nil]⟩
      · rw [csvLine_cons first cells isLast]
        rcases List.mem_cons.mp mem with rfl | mem
        · exact ⟨[], ',' :: csvLine cells, by rw [List.nil_append]⟩
        · rcases ih mem with ⟨before, after, eq⟩
          refine ⟨csvCell first ++ ',' :: before, after, ?_⟩
          rw [eq]
          simp only [List.append_assoc, List.cons_append]

theorem csvLine_shows {cells : List Text} (notBlank : ∃ cell ∈ cells, trimText cell ≠ []) :
    ∃ letter ∈ csvLine cells, isWhiteSpace letter = false := by
  rcases notBlank with ⟨cell, cellMem, shown⟩
  rcases trimText_ne_nil_iff.mp shown with ⟨letter, mem, visible⟩
  rcases exists_csvCell_in_csvLine cellMem with ⟨before, after, eq⟩
  refine ⟨letter, ?_, visible⟩
  rw [eq]
  simp [mem_csvCell mem]

theorem mem_csvCell_of_ne {cell : Text} {letter : Char} (mem : letter ∈ csvCell cell)
    (notQuote : letter ≠ '"') : letter ∈ cell := by
  unfold csvCell at mem
  split at mem
  · simp only [List.mem_append, List.mem_singleton, notQuote, false_or, or_false,
      List.mem_flatMap] at mem
    rcases mem with ⟨other, otherMem, isLetter⟩
    split at isLetter
    · simp [notQuote] at isLetter
    · rw [List.mem_singleton] at isLetter
      rwa [isLetter]
  · exact mem

theorem feed_notMem_csvLine {cells : List Text} (single : ∀ cell ∈ cells, '\n' ∉ cell) :
    '\n' ∉ csvLine cells := by
  induction cells with
  | nil => simp [csvLine, List.intercalate]
  | cons first cells ih =>
      rw [List.forall_mem_cons] at single
      have notFirst : '\n' ∉ csvCell first := fun mem =>
        single.1 (mem_csvCell_of_ne mem (by decide))
      by_cases isLast : cells = []
      · subst isLast
        rwa [csvLine_single]
      · rw [csvLine_cons first cells isLast, List.mem_append, List.mem_cons]
        rintro (isFirst | isComma | isLater)
        · exact notFirst isFirst
        · exact absurd isComma (by decide)
        · exact ih single.2 isLater

theorem csvLine_two_lines {cells : List Text} {cell : Text} (cellMem : cell ∈ cells)
    (feed : '\n' ∈ cell) : 2 ≤ (fullLines (csvLine cells)).length := by
  rcases exists_csvCell_in_csvLine cellMem with ⟨before, after, eq⟩
  rcases List.append_of_mem feed with ⟨front, behind, rfl⟩
  have quoted : ∃ letter ∈ front ++ '\n' :: behind, letter ∈ [',', '"', '\r', '\n'] :=
    ⟨'\n', by simp, by decide⟩
  let escape := fun text : Text =>
    text.flatMap fun letter => if letter = '"' then ['"', '"'] else [letter]
  have cut : csvLine cells = (before ++ '"' :: escape front) ++
      '\n' :: (escape behind ++ '"' :: after) := by
    rw [eq, csvCell, if_pos quoted, List.flatMap_append, List.flatMap_cons, if_neg (by decide)]
    simp only [escape, List.append_assoc, List.cons_append, List.nil_append]
  rw [cut]
  exact fullLines_length_two ⟨'"', by simp, by decide⟩ ⟨'"', by simp, by decide⟩

theorem csvCell_getLast? (cell : Text) : (csvCell cell).getLast? ≠ some '\r' := by
  unfold csvCell
  split
  case isTrue =>
    rw [List.getLast?_concat]
    simp
  case isFalse plain =>
    intro isReturn
    exact plain ⟨'\r', List.mem_of_getLast? isReturn, by decide⟩

theorem csvLine_getLast? (cells : List Text) : (csvLine cells).getLast? ≠ some '\r' := by
  induction cells with
  | nil => simp [csvLine, List.intercalate]
  | cons first cells ih =>
      by_cases isLast : cells = []
      · subst isLast
        rw [csvLine_single]
        exact csvCell_getLast? first
      · rw [csvLine_cons first cells isLast, List.getLast?_append, List.getLast?_cons]
        cases last : (csvLine cells).getLast? with
        | none => simp
        | some letter =>
            rw [last] at ih
            simpa using ih

theorem fullLines_append (lineEnd : LineEnd) (cells : List Text) (rest : Text) :
    fullLines (csvLine cells ++ (lineEnd.text ++ rest)) =
      fullLines (csvLine cells) ++ fullLines rest := by
  unfold fullLines
  rw [← List.filter_append]
  cases lineEnd with
  | lf => rw [LineEnd.text, List.singleton_append, splitLines_lf (csvLine_getLast? cells)]
  | crlf => rw [LineEnd.text, List.cons_append, List.singleton_append, splitLines_crlf]

theorem fullLines_csvTable (lineEnd : LineEnd) {records : List (List Text)}
    (notEmpty : records ≠ []) :
    fullLines (csvTable lineEnd records) = records.flatMap fun cells =>
      fullLines (csvLine cells) := by
  induction records with
  | nil => exact absurd rfl notEmpty
  | cons first records ih =>
      by_cases isLast : records = []
      · subst isLast
        simp [csvTable, List.intercalate]
      · rcases List.exists_cons_of_ne_nil isLast with ⟨second, others, rfl⟩
        have joined : csvTable lineEnd (first :: second :: others) =
            csvLine first ++ (lineEnd.text ++ csvTable lineEnd (second :: others)) := by
          rw [csvTable, csvTable, List.map_cons, List.map_cons, intercalate_cons,
            intercalate_cons, List.flatMap_cons, List.append_assoc]
        rw [joined, fullLines_append, ih isLast]
        rfl

theorem length_le_flatMap {Item Part : Type} {items : List Item} {parts : Item → List Part}
    (filled : ∀ item ∈ items, 1 ≤ (parts item).length) :
    items.length ≤ (items.flatMap parts).length := by
  induction items with
  | nil => simp
  | cons item items ih =>
      rw [List.forall_mem_cons] at filled
      have first := filled.1
      have rest := ih filled.2
      rw [List.flatMap_cons, List.length_append, List.length_cons]
      omega

theorem length_lt_flatMap {Item Part : Type} {items : List Item} {parts : Item → List Part}
    (filled : ∀ item ∈ items, 1 ≤ (parts item).length) {item : Item} (mem : item ∈ items)
    (twice : 2 ≤ (parts item).length) : items.length < (items.flatMap parts).length := by
  rcases List.append_of_mem mem with ⟨before, after, rfl⟩
  have front := length_le_flatMap fun item mem => filled item (List.mem_append_left _ mem)
  have behind := length_le_flatMap fun item mem =>
    filled item (List.mem_append_right _ (List.mem_cons_of_mem _ mem))
  simp only [List.flatMap_append, List.flatMap_cons, List.length_append, List.length_cons]
  omega

/-! ## Tables -/

theorem head_of_trimmed {letter : Char} {rest : Text}
    (trimmed : trimText (letter :: rest) = letter :: rest) : isWhiteSpace letter = false := by
  by_contra blank
  rw [Bool.not_eq_false] at blank
  have lengths := congrArg List.length trimmed
  have shorter : (trimText (letter :: rest)).length ≤ rest.length := by
    rw [trimText, List.length_reverse, List.dropWhile_cons_of_pos blank]
    apply Nat.le_trans (List.dropWhile_sublist _).length_le
    rw [List.length_reverse]
    exact (List.dropWhile_sublist _).length_le
  rw [List.length_cons] at lengths
  omega

theorem csvCell_cons (letter : Char) (rest : Text) : ∃ first others,
    csvCell (letter :: rest) = first :: others ∧ (first = '"' ∨ first = letter) := by
  unfold csvCell
  split
  · exact ⟨'"', _, rfl, Or.inl rfl⟩
  · exact ⟨letter, rest, rfl, Or.inr rfl⟩

theorem csvLine_eq_append (cell : Text) (cells : List Text) :
    ∃ rest, csvLine (cell :: cells) = csvCell cell ++ rest := by
  by_cases isLast : cells = []
  · exact ⟨[], by rw [isLast, csvLine_single, List.append_nil]⟩
  · exact ⟨_, csvLine_cons cell cells isLast⟩

namespace RunnerTable

variable (table : RunnerTable) (lineEnd : LineEnd)

theorem records_show : ∀ record ∈ table.headers :: table.rows,
    ∃ letter ∈ csvLine record, isWhiteSpace letter = false := by
  intro record mem
  apply csvLine_shows
  rcases List.mem_cons.mp mem with rfl | mem
  · rcases List.exists_mem_of_ne_nil _ table.hasHeaders with ⟨header, headerMem⟩
    rcases table.named header headerMem with ⟨trimmed, notEmpty⟩
    exact ⟨header, headerMem, by rwa [trimmed]⟩
  · exact table.notBlank record mem

theorem fullLines_text : fullLines (table.text lineEnd) =
    (table.headers :: table.rows).flatMap fun cells => fullLines (csvLine cells) :=
  fullLines_csvTable lineEnd (by simp)

theorem text_eq_append : ∃ rest, table.text lineEnd = csvLine table.headers ++ rest := by
  rcases List.exists_cons_of_ne_nil table.hasRows with ⟨row, rows, eq⟩
  refine ⟨lineEnd.text ++ csvTable lineEnd table.rows, ?_⟩
  rw [text, csvTable, csvTable, eq, List.map_cons, List.map_cons, intercalate_cons,
    intercalate_cons, List.flatMap_cons, List.append_assoc]

theorem text_head? : ∃ letter rest, table.text lineEnd = letter :: rest ∧
    isWhiteSpace letter = false ∧ letter ≠ '[' ∧ letter ≠ '{' := by
  rcases List.exists_cons_of_ne_nil table.hasHeaders with ⟨header, headers, eq⟩
  have headerMem : header ∈ table.headers := by simp [eq]
  rcases table.named header headerMem with ⟨trimmed, notEmpty⟩
  rcases List.exists_cons_of_ne_nil notEmpty with ⟨letter, more, rfl⟩
  rcases table.noJson _ headerMem with ⟨noArray, noObject⟩
  rcases text_eq_append table lineEnd with ⟨behind, text⟩
  rcases csvLine_eq_append (letter :: more) headers with ⟨cells, line⟩
  rw [text, eq, line, List.append_assoc]
  rcases csvCell_cons letter more with ⟨first, others, cell, isFirst⟩
  rw [cell, List.cons_append]
  refine ⟨first, _, rfl, ?_⟩
  rcases isFirst with rfl | rfl
  · decide
  · refine ⟨head_of_trimmed trimmed, ?_, ?_⟩
    · rintro rfl
      exact noArray rfl
    · rintro rfl
      exact noObject rfl

theorem not_startsJson : startsJson (table.text lineEnd) = false := by
  rcases text_head? table lineEnd with ⟨letter, rest, eq, visible, noArray, noObject⟩
  rw [startsJson, eq, List.dropWhile_cons_of_neg (by simp [visible])]
  simp [noArray, noObject]

theorem trimText_text_ne_nil : trimText (table.text lineEnd) ≠ [] := by
  rcases text_head? table lineEnd with ⟨letter, rest, eq, visible, _⟩
  rw [trimText_ne_nil_iff, eq]
  exact ⟨letter, List.mem_cons_self, visible⟩

theorem parse_text (jsonRows : Text → Option (List Variables)) {header line : Text}
    {lines : List Text} (full : fullLines (table.text lineEnd) = header :: line :: lines) :
    parseRunnerData jsonRows (table.text lineEnd) = some ((line :: lines).map fun line =>
      fromEntries (((parseCsvLine header).map trimText).zipIdx.map fun header =>
        (header.1, ((parseCsvLine line)[header.2]?).getD []))) := by
  unfold fullLines at full
  rw [parseRunnerData, if_neg (trimText_text_ne_nil table lineEnd), not_startsJson]
  simp only [Bool.false_eq_true, if_false, full]

theorem one_le_fullLines : ∀ record ∈ table.headers :: table.rows,
    1 ≤ (fullLines (csvLine record)).length :=
  fun record mem => fullLines_length_pos (table.records_show record mem)

theorem readsBack_of_singleLined (jsonRows : Text → Option (List Variables))
    (single : table.SingleLined) : table.ReadsBack jsonRows lineEnd := by
  have linesOf : ∀ record ∈ table.headers :: table.rows,
      fullLines (csvLine record) = [csvLine record] := fun record mem =>
    fullLines_single (feed_notMem_csvLine (single record mem)) (table.records_show record mem)
  have full : fullLines (table.text lineEnd) =
      csvLine table.headers :: table.rows.map csvLine := by
    rw [fullLines_text, List.flatMap_congr linesOf, ← List.map_eq_flatMap, List.map_cons]
  rcases List.exists_cons_of_ne_nil table.hasRows with ⟨row, rows, eq⟩
  rw [eq, List.map_cons] at full
  have headersBack : (parseCsvLine (csvLine table.headers)).map trimText = table.headers := by
    rw [parseCsvLine_csvLine table.hasHeaders]
    have unchanged : table.headers.map trimText = table.headers.map id :=
      List.map_congr_left fun header mem => (table.named header mem).1
    rw [unchanged, List.map_id]
  refine ⟨_, table.parse_text lineEnd jsonRows full, ?_⟩
  rw [headersBack, ← List.map_cons, ← eq, List.map_map, List.forall₂_map_right_iff,
    List.forall₂_same]
  intro row mem
  have sameWidth := table.sameWidth row mem
  have notEmpty : row ≠ [] := by
    rw [← List.length_pos_iff, sameWidth, List.length_pos_iff]
    exact table.hasHeaders
  rw [Function.comp_apply, parseCsvLine_csvLine notEmpty, entries_eq_zip sameWidth]
  exact isRecordOf_fromEntries table.distinct sameWidth

theorem singleLined_of_readsBack (jsonRows : Text → Option (List Variables))
    (readsBack : table.ReadsBack jsonRows lineEnd) : table.SingleLined := by
  intro record mem cell cellMem feed
  have many : (table.headers :: table.rows).length < (fullLines (table.text lineEnd)).length := by
    rw [fullLines_text]
    exact length_lt_flatMap table.one_le_fullLines mem (csvLine_two_lines cellMem feed)
  rw [List.length_cons] at many
  rcases readsBack with ⟨records, parsed, records_rows⟩
  have hasRows := List.length_pos_iff.mpr table.hasRows
  match full : fullLines (table.text lineEnd) with
  | [] | [_] =>
      simp only [full, List.length_cons, List.length_nil] at many
      omega
  | header :: line :: lines =>
      rw [table.parse_text lineEnd jsonRows full, Option.some.injEq] at parsed
      have lengths := records_rows.length_eq
      rw [← parsed, List.length_map, List.length_cons] at lengths
      simp only [full, List.length_cons] at many
      omega

/-- A table comes back exactly if none of its cells has a line feed. -/
theorem rowsReadBack_iff (jsonRows : Text → Option (List Variables)) :
    table.ReadsBack jsonRows lineEnd ↔ table.SingleLined :=
  ⟨table.singleLined_of_readsBack lineEnd jsonRows,
    table.readsBack_of_singleLined lineEnd jsonRows⟩

end RunnerTable

/-- A person and a note of two lines. -/
def notesTable : RunnerTable where
  headers := [['n', 'a', 'm', 'e'], ['n', 'o', 't', 'e']]
  rows := [[['a', 'd', 'a'], ['o', 'n', 'e', '\n', 't', 'w', 'o']]]
  hasHeaders := by decide
  hasRows := by decide
  distinct := by decide
  named := by decide
  noJson := by decide
  sameWidth := by decide
  notBlank := by decide

/-- A note of two lines is not read back. -/
theorem notesTable_lost : ¬ notesTable.ReadsBack (fun _ => none) .crlf := by
  intro readsBack
  have single := notesTable.singleLined_of_readsBack .crlf _ readsBack
  exact single _ (List.mem_cons_of_mem _ List.mem_cons_self) _
    (List.mem_cons_of_mem _ List.mem_cons_self) (by decide)

end Brunomnia.Runner
