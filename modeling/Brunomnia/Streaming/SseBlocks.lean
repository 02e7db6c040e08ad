import Brunomnia.Streaming.SseParser

/-!
# Blocks of event lines

Reading a block line by line collects the fields that the block has, whatever else stands
between them, and a block of bytes has the lines that its decoded text has.
-/

namespace Brunomnia.Streaming

open Library

/-! ## Fields -/

theorem fieldValues_append (name : String) (lines : List (List Char)) (line : List Char) :
    fieldValues name (lines ++ [line]) = fieldValues name lines ++ fieldValues name [line] := by
  simp [fieldValues]

theorem fieldValues_singleton {name : String} {line : List Char} :
    fieldValues name [line] =
      match fieldOf line with
      | none => []
      | some field => if field.1 = name.toList then [field.2] else [] := by
  unfold fieldValues
  cases fieldEq : fieldOf line with
  | none => simp [fieldEq]
  | some field => by_cases named : field.1 = name.toList <;> simp [fieldEq, named]

/-- Reading the lines one by one collects the fields of the block. -/
theorem foldl_readLine (lines : List (List Char)) :
    lines.foldl readLine ⟨"message".toList, [], none, none⟩ = blockFields lines := by
  induction lines using List.reverseRecOn with
  | nil => rfl
  | append_singleton lines line ih =>
      rw [List.foldl_append, ih, List.foldl_cons, List.foldl_nil]
      simp only [blockFields, fieldValues_append, fieldValues_singleton]
      unfold readLine
      cases fieldOf line with
      | none => simp
      | some field =>
          rcases field with ⟨name, value⟩
          have dataNotEvent : "data".toList ≠ "event".toList := by decide
          have idNotEvent : "id".toList ≠ "event".toList := by decide
          have idNotData : "id".toList ≠ "data".toList := by decide
          have retryNotEvent : "retry".toList ≠ "event".toList := by decide
          have retryNotData : "retry".toList ≠ "data".toList := by decide
          have retryNotId : "retry".toList ≠ "id".toList := by decide
          generalize "event".toList = event at *
          generalize "data".toList = data at *
          generalize "id".toList = id at *
          generalize "retry".toList = retry at *
          by_cases isEvent : name = event
          · subst isEvent
            simp [Ne.symm dataNotEvent, Ne.symm idNotEvent, Ne.symm retryNotEvent]
          · by_cases isData : name = data
            · subst isData
              simp [isEvent, Ne.symm idNotData, Ne.symm retryNotData]
            · by_cases isId : name = id
              · subst isId
                by_cases hasNul : Char.ofNat 0 ∈ value <;>
                  simp [hasNul, isEvent, isData, Ne.symm retryNotId]
              · by_cases isRetry : name = retry
                · subst isRetry
                  simp [isEvent, isData, isId]
                · simp [isEvent, isData, isId, isRetry]

theorem fieldValues_filter {name : String} {keep : List Char → Bool}
    (dropped : ∀ line, keep line = false → fieldValues name [line] = [])
    (lines : List (List Char)) : fieldValues name (lines.filter keep) = fieldValues name lines := by
  induction lines using List.reverseRecOn with
  | nil => rfl
  | append_singleton lines line ih =>
      rw [List.filter_append, fieldValues_append]
      by_cases kept : keep line = true
      · rw [List.filter_cons_of_pos kept, List.filter_nil, fieldValues_append, ih]
      · rw [List.filter_cons_of_neg kept, List.filter_nil, List.append_nil, ih,
          dropped line (by simpa using kept), List.append_nil]

/-- The lines that say nothing: blank ones, and what is left of one that a carriage return
and the cut of a block end. -/
def IsBlank (line : List Char) : Prop :=
  line = [] ∨ line = ['\r']

instance (line : List Char) : Decidable (IsBlank line) :=
  inferInstanceAs (Decidable (_ ∨ _))

theorem blockEvent_filter (lines : List (List Char)) :
    blockEvent (lines.filter fun line => ¬IsBlank line) = blockEvent lines := by
  have dropped : ∀ name : String, name.toList ≠ [] → name.toList ≠ ['\r'] → ∀ line,
      decide (¬IsBlank line) = false → fieldValues name [line] = [] := by
    intro name notEmpty notReturn line blank
    rw [decide_eq_false_iff_not, not_not] at blank
    rw [fieldValues_singleton]
    rcases blank with rfl | rfl
    · simp [fieldOf, Ne.symm notEmpty]
    · simp [fieldOf, Ne.symm notReturn]
  unfold blockEvent blockFields
  rw [fieldValues_filter (dropped "event" (by decide) (by decide)),
    fieldValues_filter (dropped "data" (by decide) (by decide)),
    fieldValues_filter (dropped "id" (by decide) (by decide)),
    fieldValues_filter (dropped "retry" (by decide) (by decide))]

theorem parseSseEvent_eq (block : List Char) :
    parseSseEvent block = blockEvent (textLines block) := by
  rw [parseSseEvent, foldl_readLine]
  rfl

/-! ## Lines of bytes -/

theorem fromUtf8Lossy_eq_nil_iff {bytes : List UInt8} : fromUtf8Lossy bytes = [] ↔ bytes = [] := by
  cases bytes <;> simp [fromUtf8Lossy, decodeAfter]

theorem splitEnds_returns (bytes : List UInt8) :
    splitEnds '\r' (fromUtf8Lossy bytes) = ((splitEnds 13 bytes).1.map fromUtf8Lossy,
      fromUtf8Lossy (splitEnds 13 bytes).2) :=
  splitEnds_fromUtf8Lossy 13 (by decide) (by decide) bytes

theorem splitEnds_lineFeeds (bytes : List UInt8) :
    splitEnds '\n' (fromUtf8Lossy bytes) = ((splitEnds 10 bytes).1.map fromUtf8Lossy,
      fromUtf8Lossy (splitEnds 10 bytes).2) :=
  splitEnds_fromUtf8Lossy 10 (by decide) (by decide) bytes

theorem fromUtf8Lossy_getLast {bytes : List UInt8} :
    (fromUtf8Lossy bytes).getLast? = some '\r' ↔ bytes.getLast? = some 13 := by
  by_cases empty : bytes = []
  · simp [empty, fromUtf8Lossy, decodeAfter]
  · have notEmpty : fromUtf8Lossy bytes ≠ [] := mt fromUtf8Lossy_eq_nil_iff.mp empty
    have ofText := @splitEnds_remainder_eq_nil_iff _ _ '\r' (fromUtf8Lossy bytes)
    have ofBytes := @splitEnds_remainder_eq_nil_iff _ _ 13 bytes
    rw [or_iff_right notEmpty, splitEnds_returns, fromUtf8Lossy_eq_nil_iff] at ofText
    rw [or_iff_right empty] at ofBytes
    exact ofText.symm.trans ofBytes

theorem fromUtf8Lossy_strip (line : List UInt8) :
    stripCarriageReturn '\r' (fromUtf8Lossy line) =
      fromUtf8Lossy (stripCarriageReturn 13 line) := by
  unfold stripCarriageReturn
  by_cases ends : line.getLast? = some 13
  · rw [if_pos ends, if_pos (fromUtf8Lossy_getLast.mpr ends)]
    rcases List.eq_nil_or_concat line with rfl | ⟨init, last, rfl⟩
    · simp at ends
    · have isReturn : last = 13 := by simpa using ends
      subst isReturn
      have decoded := fromUtf8Lossy_append 13 (by decide) init []
      rw [List.concat_eq_append, decoded]
      simp [fromUtf8Lossy, decodeAfter]
  · rw [if_neg ends, if_neg (mt fromUtf8Lossy_getLast.mp ends)]

theorem textLines_fromUtf8Lossy (block : List UInt8) :
    textLines (fromUtf8Lossy block) =
      (completeLines block ++
        if (splitEnds 10 block).2 = [] then [] else [(splitEnds 10 block).2]).map
          fromUtf8Lossy := by
  unfold textLines completeLines
  rw [splitEnds_lineFeeds]
  simp only [fromUtf8Lossy_eq_nil_iff, List.map_append, List.map_map]
  congr 1
  · apply List.map_congr_left
    intro line _
    exact fromUtf8Lossy_strip line
  · split <;> rfl

/-- Lines of bytes that say nothing. -/
def IsBlankBytes (line : List UInt8) : Prop :=
  line = [] ∨ line = [13]

instance (line : List UInt8) : Decidable (IsBlankBytes line) :=
  inferInstanceAs (Decidable (_ ∨ _))

theorem blank_fromUtf8Lossy {line : List UInt8} (blank : IsBlankBytes line) :
    IsBlank (fromUtf8Lossy line) := by
  rcases blank with rfl | rfl
  · exact .inl rfl
  · exact .inr rfl

/-- Two lists of lines that differ in blank lines only are blocks with the same event. -/
theorem blockEvent_of_filter_eq {lines others : List (List UInt8)}
    (same : (lines.filter fun line => ¬IsBlankBytes line) =
      others.filter fun line => ¬IsBlankBytes line) :
    blockEvent (lines.map fromUtf8Lossy) = blockEvent (others.map fromUtf8Lossy) := by
  have filtered : ∀ lines : List (List UInt8),
      blockEvent (lines.map fromUtf8Lossy) =
        blockEvent ((lines.filter fun line => ¬IsBlankBytes line).map fromUtf8Lossy) := by
    intro lines
    rw [← blockEvent_filter (lines.map fromUtf8Lossy),
      ← blockEvent_filter ((lines.filter _).map fromUtf8Lossy)]
    congr 1
    rw [List.filter_map, List.filter_map, List.filter_filter]
    congr 1
    apply List.filter_congr
    intro line _
    by_cases blank : IsBlankBytes line
    · simp [blank, blank_fromUtf8Lossy blank]
    · simp [blank]
  rw [filtered lines, filtered others, same]

theorem parseSseEvent_block (block : List UInt8) :
    parseSseEvent (fromUtf8Lossy block) =
      blockEvent ((completeLines block ++ [(splitEnds 10 block).2]).map fromUtf8Lossy) := by
  rw [parseSseEvent_eq, textLines_fromUtf8Lossy]
  split
  case isTrue noLast =>
    apply blockEvent_of_filter_eq
    simp [noLast, IsBlankBytes]
  case isFalse => rfl

end Brunomnia.Streaming
