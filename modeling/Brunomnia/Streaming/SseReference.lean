import Brunomnia.Streaming.SseChunks

/-!
# The parser against the reference

Byte by byte, the buffer of the parser holds the lines that the reference has not closed
yet, blank lines apart. A line feed that closes a block for the reference completes a pair
of line ends for the parser.
-/

namespace Brunomnia.Streaming

open Library

/-- The lines after the last blank one. -/
def openLines : List (List UInt8) → List (List UInt8) → List (List UInt8)
  | block, [] => block
  | block, line :: lines =>
      if line = [] then openLines [] lines else openLines (block ++ [line]) lines

theorem lineBlocks_append (block lines : List (List UInt8)) (line : List UInt8) :
    lineBlocks block (lines ++ [line]) =
      lineBlocks block lines ++ if line = [] then [openLines block lines] else [] := by
  induction lines generalizing block with
  | nil => by_cases blank : line = [] <;> simp [lineBlocks, openLines, blank]
  | cons head lines ih =>
      simp only [List.cons_append, lineBlocks, openLines]
      by_cases blankHead : head = [] <;> simp [blankHead, ih]

theorem openLines_append (block lines : List (List UInt8)) (line : List UInt8) :
    openLines block (lines ++ [line]) =
      if line = [] then [] else openLines block lines ++ [line] := by
  induction lines generalizing block with
  | nil => by_cases blank : line = [] <;> simp [openLines, blank]
  | cons head lines ih =>
      simp only [List.cons_append, openLines]
      by_cases blankHead : head = [] <;> simp [blankHead, ih]

/-! ## One more byte -/

/-- The line that is not complete yet. -/
def lastLine (stream : List UInt8) : List UInt8 :=
  (splitEnds 10 stream).2

theorem completeLines_lineFeed (stream : List UInt8) :
    completeLines (stream ++ [10]) =
      completeLines stream ++ [stripCarriageReturn 13 (lastLine stream)] := by
  unfold completeLines lastLine
  rw [splitEnds_append]
  simp [splitEnds]

theorem lastLine_lineFeed (stream : List UInt8) : lastLine (stream ++ [10]) = [] := by
  unfold lastLine
  rw [splitEnds_append]
  rfl

theorem completeLines_snoc {byte : UInt8} (notFeed : byte ≠ 10) (stream : List UInt8) :
    completeLines (stream ++ [byte]) = completeLines stream := by
  unfold completeLines
  rw [splitEnds_snoc notFeed]

theorem lastLine_snoc {byte : UInt8} (notFeed : byte ≠ 10) (stream : List UInt8) :
    lastLine (stream ++ [byte]) = lastLine stream ++ [byte] := by
  unfold lastLine
  rw [splitEnds_snoc notFeed]

theorem referenceEvents_snoc {byte : UInt8} (notFeed : byte ≠ 10) (stream : List UInt8) :
    referenceEvents (stream ++ [byte]) = referenceEvents stream := by
  unfold referenceEvents
  rw [completeLines_snoc notFeed]

theorem referenceEvents_lineFeed (stream : List UInt8) :
    referenceEvents (stream ++ [10]) = referenceEvents stream ++
      if stripCarriageReturn 13 (lastLine stream) = [] then
        (blockEvent ((openLines [] (completeLines stream)).map fromUtf8Lossy)).toList
      else [] := by
  unfold referenceEvents
  rw [completeLines_lineFeed, lineBlocks_append, List.filterMap_append]
  congr 1
  split
  · cases eventEq : blockEvent ((openLines [] (completeLines stream)).map fromUtf8Lossy) <;>
      simp [eventEq]
  · rfl

/-- A boundary that comes with a byte ends in that byte. -/
theorem findEventBoundary_snoc {buffer : List UInt8} {byte : UInt8}
    {boundary separatorLength : ℕ} (settled : findEventBoundary buffer = none)
    (found : findEventBoundary (buffer ++ [byte]) = some (boundary, separatorLength)) :
    ∃ block, block.length = boundary ∧
      ((separatorLength = 2 ∧ buffer ++ [byte] = block ++ lineFeedBlank) ∨
        (separatorLength = 4 ∧ buffer ++ [byte] = block ++ carriageReturnBlank)) := by
  have atEnd : ∀ pattern : List UInt8, pattern ≠ [] → OccursAt pattern (buffer ++ [byte]) boundary →
      ¬OccursAt pattern buffer boundary →
        ((buffer ++ [byte]).take boundary).length = boundary ∧
          buffer ++ [byte] = (buffer ++ [byte]).take boundary ++ pattern := by
    intro pattern nonempty occurs notBefore
    have fits := occurs.end_le nonempty
    have past : ¬boundary + pattern.length ≤ buffer.length :=
      fun within => notBefore (occurs.of_append within)
    rw [List.length_append, List.length_singleton] at fits
    constructor
    · simp
      omega
    · have whole : pattern = (buffer ++ [byte]).drop boundary := by
        apply occurs.eq_of_length
        simp
        omega
      rw [whole, List.take_append_drop]
  have nowhere := findEventBoundary_eq_none_iff.mp settled
  rcases findEventBoundary_eq_some found with ⟨feeds, rfl⟩ | ⟨_, returns, rfl⟩
  · have occurs := ((position_eq_some_iff lineFeedBlank_ne_nil).mp feeds).1
    have ends := atEnd _ lineFeedBlank_ne_nil occurs (nowhere.1 _)
    exact ⟨_, ends.1, .inl ⟨rfl, ends.2⟩⟩
  · have occurs := ((position_eq_some_iff carriageReturnBlank_ne_nil).mp returns).1
    have ends := atEnd _ carriageReturnBlank_ne_nil occurs (nowhere.2 _)
    exact ⟨_, ends.1, .inr ⟨rfl, ends.2⟩⟩

/-! ## The buffer and the open lines -/

/-- The lines that say something. -/
def saying (lines : List (List UInt8)) : List (List UInt8) :=
  lines.filter fun line => ¬IsBlankBytes line

/-- What the parser has emitted and kept after the first bytes of a stream. -/
structure ReadsAs (stream : List UInt8) (events : List ParsedSseEvent) (buffer : List UInt8) :
    Prop where
  drains : Drains stream events buffer
  emitted : events = referenceEvents stream
  pending : saying (completeLines buffer) = saying (openLines [] (completeLines stream))
  sameLast : lastLine buffer = lastLine stream

theorem readsAs_nil : ReadsAs [] [] [] where
  drains := .settled rfl
  emitted := rfl
  pending := rfl
  sameLast := rfl

section Byte

variable {stream buffer : List UInt8} {events : List ParsedSseEvent}

/-- A byte within a line. -/
theorem ReadsAs.snoc (reads : ReadsAs stream events buffer) {byte : UInt8} (notFeed : byte ≠ 10)
    (ordered : LineFeedsFirst (stream ++ [byte])) :
    ReadsAs (stream ++ [byte]) events (buffer ++ [byte]) := by
  have settled : findEventBoundary (buffer ++ [byte]) = none := by
    cases found : findEventBoundary (buffer ++ [byte]) with
    | none => rfl
    | some cut =>
        exfalso
        rcases findEventBoundary_snoc reads.drains.settled_rest found with
          ⟨block, _, ⟨_, ends⟩ | ⟨_, ends⟩⟩
        · have last := congrArg List.getLast? ends
          simp [lineFeedBlank] at last
          exact notFeed last
        · have last := congrArg List.getLast? ends
          simp [carriageReturnBlank] at last
          exact notFeed last
  exact {
    drains := by
      have drains := reads.drains.append ordered (.settled settled)
      rwa [List.append_nil] at drains
    emitted := by
      rw [referenceEvents_snoc notFeed]
      exact reads.emitted
    pending := by
      rw [completeLines_snoc notFeed, completeLines_snoc notFeed]
      exact reads.pending
    sameLast := by
      rw [lastLine_snoc notFeed, lastLine_snoc notFeed, reads.sameLast] }

theorem ReadsAs.line (reads : ReadsAs stream events buffer)
    (notBlank : stripCarriageReturn 13 (lastLine stream) ≠ [])
    (settled : findEventBoundary (buffer ++ [10]) = none)
    (ordered : LineFeedsFirst (stream ++ [10])) :
    ReadsAs (stream ++ [10]) events (buffer ++ [10]) where
  drains := by
    have drains := reads.drains.append ordered (.settled settled)
    rwa [List.append_nil] at drains
  emitted := by
    rw [referenceEvents_lineFeed, if_neg notBlank, List.append_nil]
    exact reads.emitted
  pending := by
    rw [completeLines_lineFeed, completeLines_lineFeed, openLines_append, if_neg notBlank,
      reads.sameLast, saying, saying, List.filter_append, List.filter_append]
    exact congrArg (· ++ _) reads.pending
  sameLast := by rw [lastLine_lineFeed, lastLine_lineFeed]

theorem ReadsAs.blank (reads : ReadsAs stream events buffer)
    (isBlank : stripCarriageReturn 13 (lastLine stream) = [])
    (nothing : saying (completeLines buffer) = [])
    (settled : findEventBoundary (buffer ++ [10]) = none)
    (ordered : LineFeedsFirst (stream ++ [10])) :
    ReadsAs (stream ++ [10]) events (buffer ++ [10]) where
  drains := by
    have drains := reads.drains.append ordered (.settled settled)
    rwa [List.append_nil] at drains
  emitted := by
    have noEvent : blockEvent ((openLines [] (completeLines stream)).map fromUtf8Lossy) =
        blockEvent (([] : List (List UInt8)).map fromUtf8Lossy) := by
      rw [reads.pending] at nothing
      exact blockEvent_of_filter_eq nothing
    rw [referenceEvents_lineFeed, if_pos isBlank, noEvent, reads.emitted]
    exact (List.append_nil _).symm
  pending := by
    rw [completeLines_lineFeed, completeLines_lineFeed, openLines_append, if_pos isBlank,
      reads.sameLast, isBlank, saying, List.filter_append]
    rw [saying] at nothing
    rw [nothing]
    rfl
  sameLast := by rw [lastLine_lineFeed, lastLine_lineFeed]

theorem ReadsAs.boundary (reads : ReadsAs stream events buffer)
    (isBlank : stripCarriageReturn 13 (lastLine stream) = []) {block separator : List UInt8}
    (ends : buffer ++ [10] = block ++ separator)
    (found : findEventBoundary (buffer ++ [10]) = some (block.length, separator.length))
    (closes : saying (completeLines block ++ [lastLine block]) = saying (completeLines buffer))
    (ordered : LineFeedsFirst (stream ++ [10])) :
    ReadsAs (stream ++ [10]) (events ++ (parseSseEvent (fromUtf8Lossy block)).toList) [] where
  drains := by
    apply reads.drains.append ordered
    have nothingLeft : Drains ((buffer ++ [10]).drop (block.length + separator.length)) [] [] := by
      rw [ends, ← List.length_append, List.drop_length]
      exact .settled rfl
    have cut := Drains.cut found nothingLeft
    rwa [ends, List.take_left, List.append_nil, ← ends] at cut
  emitted := by
    rw [referenceEvents_lineFeed, if_pos isBlank, reads.emitted, parseSseEvent_block]
    congr 2
    exact blockEvent_of_filter_eq (closes.trans reads.pending)
  pending := by
    rw [completeLines_lineFeed, openLines_append, if_pos isBlank]
    rfl
  sameLast := (lastLine_lineFeed stream).symm

theorem stripCarriageReturn_eq_nil {line : List UInt8}
    (blank : stripCarriageReturn 13 line = []) : line = [] ∨ line = [13] := by
  unfold stripCarriageReturn at blank
  split at blank
  case isTrue ends =>
    rcases List.eq_nil_or_concat line with rfl | ⟨init, last, rfl⟩
    · exact .inl rfl
    · simp at ends blank
      simp [ends, blank]
  case isFalse => exact .inl blank

theorem eq_lastLine_or (stream : List UInt8) :
    stream = lastLine stream ∨ ∃ front, stream = front ++ 10 :: lastLine stream := by
  have joined := @splitEnds_join _ _ 10 stream
  rcases List.eq_nil_or_concat (splitEnds 10 stream).1 with noLines | ⟨init, line, linesEq⟩
  · left
    rw [noLines] at joined
    exact joined.symm
  · right
    rw [linesEq] at joined
    refine ⟨init.flatMap (· ++ [10]) ++ line, ?_⟩
    rw [lastLine]
    simpa using joined.symm

theorem notMem_lastLine (stream : List UInt8) : 10 ∉ lastLine stream :=
  notMem_splitEnds_remainder stream

theorem occurs_of_isSuffix {pattern before after : List UInt8}
    (isSuffix : before ++ pattern ++ after <:+ stream) :
    ∃ index, OccursAt pattern stream index := by
  rcases isSuffix with ⟨processed, rfl⟩
  refine ⟨(processed ++ before).length, ?_⟩
  have occurs := @occursAt_append_length _ pattern (processed ++ before) after
  simpa using occurs

/-- Cutting at two line feeds leaves the block the lines it had, since no carriage return is
in front of them. -/
theorem saying_feeds {block : List UInt8} (blanks : BlanksMatch (stream ++ [10]))
    (isSuffix : block ++ [10] <:+ stream) :
    saying (completeLines block ++ [lastLine block]) = saying (completeLines (block ++ [10])) := by
  rw [completeLines_lineFeed, saying, saying, List.filter_append, List.filter_append]
  congr 1
  unfold stripCarriageReturn
  split
  case isFalse => rfl
  case isTrue ends =>
    rcases List.eq_nil_or_concat (lastLine block) with empty | ⟨init, last, lineEq⟩
    · simp [empty] at ends
    · rw [List.concat_eq_append] at lineEq
      have isReturn : last = 13 := by simpa [lineEq] using ends
      subst isReturn
      rcases List.eq_nil_or_concat init with rfl | ⟨front, byte, rfl⟩
      · rw [lineEq]
        rfl
      · exfalso
        rw [List.concat_eq_append] at lineEq
        have notFeed : byte ≠ 10 := by
          rintro rfl
          exact notMem_lastLine block (by simp [lineEq])
        have blockEq : ∃ before, block = before ++ [byte, 13] := by
          rcases eq_lastLine_or block with whole | ⟨start, whole⟩
          · exact ⟨front, by rw [whole, lineEq]; simp⟩
          · exact ⟨start ++ 10 :: front, by rw [whole, lineEq]; simp⟩
        rcases blockEq with ⟨before, rfl⟩
        have extended : before ++ [byte, 13, 10, 10] ++ [] <:+ stream ++ [10] := by
          rcases isSuffix with ⟨processed, rfl⟩
          exact ⟨processed, by simp⟩
        rcases occurs_of_isSuffix extended with ⟨index, occurs⟩
        exact blanks.noFeedAfterReturn byte notFeed index occurs

/-- A blank line that completes no boundary comes before all lines that say something. -/
theorem saying_of_unseen (reads : ReadsAs stream events buffer)
    (isBlank : stripCarriageReturn 13 (lastLine stream) = [])
    (settled : findEventBoundary (buffer ++ [10]) = none)
    (blanks : BlanksMatch (stream ++ [10])) : saying (completeLines buffer) = [] := by
  have nowhere := findEventBoundary_eq_none_iff.mp settled
  have nowhereBefore := findEventBoundary_eq_none_iff.mp reads.drains.settled_rest
  have suffix : buffer ++ [10] <:+ stream ++ [10] := by
    rcases reads.drains.isSuffix with ⟨processed, rfl⟩
    exact ⟨processed, by simp⟩
  rw [← reads.sameLast] at isBlank
  rcases stripCarriageReturn_eq_nil isBlank with lastEq | lastEq
  · rcases eq_lastLine_or buffer with whole | ⟨front, whole⟩
    · rw [whole, lastEq]
      rfl
    · exfalso
      rw [lastEq] at whole
      subst whole
      have occurs := @occursAt_append_length _ lineFeedBlank front []
      exact nowhere.1 front.length (by simpa [lineFeedBlank] using occurs)
  · rcases eq_lastLine_or buffer with whole | ⟨front, whole⟩
    · rw [whole, lastEq]
      rfl
    · rw [lastEq] at whole
      subst whole
      rcases List.eq_nil_or_concat front with rfl | ⟨before, byte, rfl⟩
      · rfl
      · exfalso
        by_cases isFeed : byte = 10
        · subst isFeed
          have occurs := @occursAt_append_length _ lineFeedBlank before [13]
          exact nowhereBefore.1 before.length (by simpa [lineFeedBlank] using occurs)
        · by_cases isReturn : byte = 13
          · subst isReturn
            have occurs := @occursAt_append_length _ carriageReturnBlank before []
            exact nowhere.2 before.length (by simpa [carriageReturnBlank] using occurs)
          · have extended : before ++ [byte, 10, 13, 10] ++ [] <:+ stream ++ [10] := by
              simpa using suffix
            rcases occurs_of_isSuffix extended with ⟨index, occurs⟩
            exact blanks.noReturnAfterFeed byte isFeed isReturn index occurs

theorem ReadsAs.lineFeed (reads : ReadsAs stream events buffer)
    (ordered : LineFeedsFirst (stream ++ [10])) (blanks : BlanksMatch (stream ++ [10])) :
    ∃ events buffer, ReadsAs (stream ++ [10]) events buffer := by
  cases found : findEventBoundary (buffer ++ [10]) with
  | none =>
      by_cases isBlank : stripCarriageReturn 13 (lastLine stream) = []
      · have nothing := saying_of_unseen reads isBlank found blanks
        exact ⟨_, _, reads.blank isBlank nothing found ordered⟩
      · exact ⟨_, _, reads.line isBlank found ordered⟩
  | some cut =>
      rcases cut with ⟨boundary, separatorLength⟩
      rcases findEventBoundary_snoc reads.drains.settled_rest found with
        ⟨block, rfl, ⟨rfl, ends⟩ | ⟨rfl, ends⟩⟩
      · have withFeed : buffer ++ [10] = block ++ [10] ++ [10] := by
          simpa [lineFeedBlank] using ends
        have bufferEq := List.append_cancel_right withFeed
        have lastEq : lastLine stream = [] := by
          rw [← reads.sameLast, bufferEq, lastLine_lineFeed]
        have closes := saying_feeds blanks (bufferEq ▸ reads.drains.isSuffix)
        rw [← bufferEq] at closes
        exact ⟨_, _, reads.boundary (by rw [lastEq]; rfl) ends found closes ordered⟩
      · have withFeed : buffer ++ [10] = block ++ [13] ++ [10] ++ [13] ++ [10] := by
          simpa [carriageReturnBlank] using ends
        have bufferEq := List.append_cancel_right withFeed
        have notFeed : (13 : UInt8) ≠ 10 := by decide
        have lastEq : lastLine stream = [13] := by
          rw [← reads.sameLast, bufferEq, lastLine_snoc notFeed, lastLine_lineFeed]
          rfl
        have linesEq : completeLines buffer = completeLines block ++ [lastLine block] := by
          rw [bufferEq, completeLines_snoc notFeed, completeLines_lineFeed,
            completeLines_snoc notFeed, lastLine_snoc notFeed]
          simp [stripCarriageReturn]
        exact ⟨_, _, reads.boundary (by rw [lastEq]; rfl) ends found (by rw [linesEq]) ordered⟩

end Byte

theorem readsAs_of_blanksMatch {stream : List UInt8} (ordered : LineFeedsFirst stream)
    (blanks : BlanksMatch stream) : ∃ events buffer, ReadsAs stream events buffer := by
  induction stream using List.reverseRecOn with
  | nil => exact ⟨[], [], readsAs_nil⟩
  | append_singleton stream byte ih =>
      rcases ih ordered.of_append blanks.of_append with ⟨events, buffer, reads⟩
      by_cases isFeed : byte = 10
      · subst isFeed
        exact reads.lineFeed ordered blanks
      · exact ⟨_, _, reads.snoc isFeed ordered⟩

/-! ## Chunks of a stream -/

/-- The chunks of a stream do not matter as long as no line feeds in a row come after line
ends with carriage returns; where blank lines also end like the lines in front of them, the
events are those of the reference. -/
theorem pushAll_eq_referenceEvents (chunks : List (List UInt8))
    (ordered : LineFeedsFirst chunks.flatten) :
    pushAll [] chunks = pushAll [] [chunks.flatten] ∧
      (BlanksMatch chunks.flatten → pushAll [] chunks = referenceEvents chunks.flatten) := by
  have empty : findEventBoundary [] = none := rfl
  rcases pushAll_drains empty chunks ordered with ⟨rest, drains⟩
  constructor
  · have whole : [chunks.flatten].flatten = chunks.flatten := by simp
    rcases pushAll_drains empty [chunks.flatten] (whole.symm ▸ ordered) with ⟨_, drainsWhole⟩
    rw [whole] at drainsWhole
    exact (drains.unique drainsWhole).1
  · intro blanks
    rcases readsAs_of_blanksMatch ordered blanks with ⟨events, buffer, reads⟩
    rw [(drains.unique reads.drains).1]
    exact reads.emitted

def asciiBytes (text : String) : List UInt8 :=
  text.toList.map fun letter => UInt8.ofNat letter.toNat

theorem not_occursAt_of_part {first part more stream : List UInt8}
    (nowhere : position part stream = none) (nonempty : part ≠ []) (index : ℕ) :
    ¬OccursAt (first ++ (part ++ more)) stream index := by
  rintro ⟨behind, whole⟩
  refine (position_eq_none_iff nonempty).mp nowhere (index + first.length) ?_
  rw [OccursAt, ← List.drop_drop, ← whole, List.append_assoc, List.drop_left, List.append_assoc]
  exact List.prefix_append _ _

/-- Two events with carriage returns come in three chunks. -/
theorem pushAll_returns :
    let chunks := [asciiBytes "data: a\r\n\r", asciiBytes "\n", asciiBytes "data: b\r\n\r\n"]
    pushAll [] chunks = pushAll [] [chunks.flatten] ∧
      pushAll [] chunks = referenceEvents chunks.flatten := by
  intro chunks
  have noFeeds : position lineFeedBlank chunks.flatten = none := by decide
  have ordered : LineFeedsFirst chunks.flatten := fun returns feeds _ occursFeeds =>
    absurd occursFeeds ((position_eq_none_iff lineFeedBlank_ne_nil).mp noFeeds feeds)
  have returnsOnly : ∀ index < chunks.flatten.length,
      [10, 13, 10] <+: chunks.flatten.drop (index + 1) → chunks.flatten[index]? = some 13 := by
    decide
  have blanks : BlanksMatch chunks.flatten := by
    constructor
    · intro byte _ index
      exact @not_occursAt_of_part [byte, 13] lineFeedBlank [] _ noFeeds lineFeedBlank_ne_nil index
    · intro byte _ notReturn index occurs
      have within : index + 4 ≤ chunks.flatten.length := occurs.end_le (by simp)
      have isReturn := returnsOnly index (by omega) ?_
      · rcases occurs with ⟨behind, whole⟩
        have isByte : chunks.flatten[index]? = some byte := by
          rw [← List.head?_drop, ← whole]
          rfl
        exact notReturn (Option.some.inj (isByte.symm.trans isReturn))
      · rcases occurs with ⟨behind, whole⟩
        rw [← List.drop_drop, ← whole]
        exact ⟨behind, rfl⟩
  rcases pushAll_eq_referenceEvents chunks ordered with ⟨same, reference⟩
  exact ⟨same, reference blanks⟩

/-- An event with carriage returns and then one with line feeds: pushed at once, they are
one event. -/
theorem chunks_matter : ¬∀ chunks, pushAll [] chunks = pushAll [] [chunks.flatten] := by
  intro same
  have merged := same [asciiBytes "data: a\r\n\r\n", asciiBytes "data: b\n\n"]
  revert merged
  decide

end Brunomnia.Streaming
