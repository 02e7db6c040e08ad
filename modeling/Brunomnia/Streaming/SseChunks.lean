import Brunomnia.Streaming.SseBlocks

/-!
# Events of a chunked stream

The parser looks for a pair of line feeds first, wherever it is in the buffer, and for a
pair of carriage returns with line feeds only if there is none. As long as no pair of line
feeds comes after the other pair, what it has cut off stays cut off, and the chunks do not
matter. Where also every blank line ends as the line in front of it does, the parser sees
every blank line and the events are those of the reference.
-/

namespace Brunomnia.Streaming

open Library

/-- No line feeds in a row come after two line ends with carriage returns. -/
def LineFeedsFirst (stream : List UInt8) : Prop :=
  ∀ returns feeds, OccursAt carriageReturnBlank stream returns →
    OccursAt lineFeedBlank stream feeds → feeds < returns

/-- A blank line after a line with something in it ends as that line does. -/
structure BlanksMatch (stream : List UInt8) : Prop where
  noFeedAfterReturn : ∀ byte ≠ 10, ∀ index, ¬OccursAt [byte, 13, 10, 10] stream index
  noReturnAfterFeed : ∀ byte ≠ 10, byte ≠ 13 → ∀ index,
    ¬OccursAt [byte, 10, 13, 10] stream index

theorem LineFeedsFirst.drop {stream : List UInt8} (ordered : LineFeedsFirst stream) (start : ℕ) :
    LineFeedsFirst (stream.drop start) := by
  intro returns feeds occursReturns occursFeeds
  have before := ordered _ _ (occursAt_drop.mp occursReturns) (occursAt_drop.mp occursFeeds)
  omega

theorem LineFeedsFirst.of_append {first more : List UInt8}
    (ordered : LineFeedsFirst (first ++ more)) : LineFeedsFirst first :=
  fun returns feeds occursReturns occursFeeds =>
    ordered returns feeds (occursReturns.append more) (occursFeeds.append more)

theorem BlanksMatch.of_append {first more : List UInt8} (blanks : BlanksMatch (first ++ more)) :
    BlanksMatch first where
  noFeedAfterReturn byte notFeed index occurs :=
    blanks.noFeedAfterReturn byte notFeed index (occurs.append more)
  noReturnAfterFeed byte notFeed notReturn index occurs :=
    blanks.noReturnAfterFeed byte notFeed notReturn index (occurs.append more)

/-! ## Boundaries -/

theorem lineFeedBlank_ne_nil : lineFeedBlank ≠ [] := by decide

theorem carriageReturnBlank_ne_nil : carriageReturnBlank ≠ [] := by decide

theorem findEventBoundary_eq_none_iff {buffer : List UInt8} :
    findEventBoundary buffer = none ↔
      (∀ index, ¬OccursAt lineFeedBlank buffer index) ∧
        ∀ index, ¬OccursAt carriageReturnBlank buffer index := by
  rw [← position_eq_none_iff lineFeedBlank_ne_nil,
    ← position_eq_none_iff carriageReturnBlank_ne_nil]
  unfold findEventBoundary
  cases position lineFeedBlank buffer <;> cases position carriageReturnBlank buffer <;> simp

theorem findEventBoundary_eq_some {buffer : List UInt8} {boundary separatorLength : ℕ}
    (found : findEventBoundary buffer = some (boundary, separatorLength)) :
    (position lineFeedBlank buffer = some boundary ∧ separatorLength = 2) ∨
      (position lineFeedBlank buffer = none ∧
        position carriageReturnBlank buffer = some boundary ∧ separatorLength = 4) := by
  unfold findEventBoundary at found
  cases feeds : position lineFeedBlank buffer with
  | some index =>
      simp only [feeds, Option.map_some] at found
      left
      have cutEq : (index, 2) = (boundary, separatorLength) := by simpa using found
      rw [Prod.mk.injEq] at cutEq
      exact ⟨congrArg some cutEq.1, cutEq.2.symm⟩
  | none =>
      simp only [feeds, Option.map_none] at found
      right
      have cutEq : (position carriageReturnBlank buffer).map (fun index => (index, 4)) =
          some (boundary, separatorLength) := by simpa using found
      rcases Option.map_eq_some_iff.mp cutEq with ⟨index, indexEq, pairEq⟩
      rw [Prod.mk.injEq] at pairEq
      exact ⟨rfl, by rw [indexEq, pairEq.1], pairEq.2.symm⟩

theorem findEventBoundary_fits {buffer : List UInt8} {boundary separatorLength : ℕ}
    (found : findEventBoundary buffer = some (boundary, separatorLength)) :
    0 < separatorLength ∧ boundary + separatorLength ≤ buffer.length := by
  rcases findEventBoundary_eq_some found with ⟨feeds, rfl⟩ | ⟨_, returns, rfl⟩
  · have occurs := ((position_eq_some_iff lineFeedBlank_ne_nil).mp feeds).1
    exact ⟨by omega, occurs.end_le lineFeedBlank_ne_nil⟩
  · have occurs := ((position_eq_some_iff carriageReturnBlank_ne_nil).mp returns).1
    exact ⟨by omega, occurs.end_le carriageReturnBlank_ne_nil⟩

theorem findEventBoundary_append {buffer more : List UInt8} {cut : ℕ × ℕ}
    (ordered : LineFeedsFirst (buffer ++ more)) (found : findEventBoundary buffer = some cut) :
    findEventBoundary (buffer ++ more) = some cut := by
  rcases cut with ⟨boundary, separatorLength⟩
  rcases findEventBoundary_eq_some found with ⟨feeds, rfl⟩ | ⟨noFeeds, returns, rfl⟩
  · unfold findEventBoundary
    rw [position_append lineFeedBlank_ne_nil feeds more]
    rfl
  · have noFeeds := (position_eq_none_iff lineFeedBlank_ne_nil).mp noFeeds
    have occurs := ((position_eq_some_iff carriageReturnBlank_ne_nil).mp returns).1
    have fits := occurs.end_le carriageReturnBlank_ne_nil
    have noneLater : position lineFeedBlank (buffer ++ more) = none := by
      rw [position_eq_none_iff lineFeedBlank_ne_nil]
      intro index feeds
      have before := ordered boundary index (occurs.append more) feeds
      refine noFeeds index (feeds.of_append ?_)
      simp only [lineFeedBlank, carriageReturnBlank, List.length_cons, List.length_nil] at fits ⊢
      omega
    unfold findEventBoundary
    rw [noneLater, position_append carriageReturnBlank_ne_nil returns more]
    rfl

/-! ## Draining the buffer -/

/-- What the loop does: cut until there is no boundary. -/
inductive Drains : List UInt8 → List ParsedSseEvent → List UInt8 → Prop where
  | settled {buffer : List UInt8} (noBoundary : findEventBoundary buffer = none) :
      Drains buffer [] buffer
  | cut {buffer rest : List UInt8} {events : List ParsedSseEvent}
      {boundary separatorLength : ℕ}
      (found : findEventBoundary buffer = some (boundary, separatorLength))
      (others : Drains (buffer.drop (boundary + separatorLength)) events rest) :
      Drains buffer
        ((parseSseEvent (fromUtf8Lossy (buffer.take boundary))).toList ++ events) rest

theorem drainEvents_drains {fuel : ℕ} {buffer : List UInt8} (enough : buffer.length ≤ fuel) :
    Drains buffer (drainEvents fuel buffer).1 (drainEvents fuel buffer).2 := by
  induction fuel generalizing buffer with
  | zero =>
      have empty := List.length_eq_zero_iff.mp (Nat.le_zero.mp enough)
      subst empty
      exact .settled rfl
  | succ fuel ih =>
      unfold drainEvents
      split
      case h_1 noBoundary => exact .settled noBoundary
      case h_2 boundary separatorLength found =>
        refine .cut found (ih ?_)
        have fits := findEventBoundary_fits found
        rw [List.length_drop]
        omega

theorem Drains.unique {buffer rest otherRest : List UInt8} {events others : List ParsedSseEvent}
    (drains : Drains buffer events rest) (drainsOther : Drains buffer others otherRest) :
    events = others ∧ rest = otherRest := by
  induction drains generalizing others otherRest with
  | settled noBoundary =>
      cases drainsOther with
      | settled => exact ⟨rfl, rfl⟩
      | cut found =>
          rw [noBoundary] at found
          contradiction
  | cut found _ ih =>
      cases drainsOther with
      | settled noBoundary =>
          rw [noBoundary] at found
          contradiction
      | cut otherFound drainsOther =>
          rw [found, Option.some.injEq, Prod.mk.injEq] at otherFound
          rcases otherFound with ⟨rfl, rfl⟩
          rcases ih drainsOther with ⟨rfl, rfl⟩
          exact ⟨rfl, rfl⟩

theorem Drains.settled_rest {buffer rest : List UInt8} {events : List ParsedSseEvent}
    (drains : Drains buffer events rest) : findEventBoundary rest = none := by
  induction drains with
  | settled noBoundary => exact noBoundary
  | cut _ _ ih => exact ih

theorem Drains.isSuffix {buffer rest : List UInt8} {events : List ParsedSseEvent}
    (drains : Drains buffer events rest) : rest <:+ buffer := by
  induction drains with
  | settled => exact List.suffix_refl _
  | cut _ _ ih => exact ih.trans (List.drop_suffix _ _)

theorem Drains.append {buffer rest more final : List UInt8}
    {events later : List ParsedSseEvent} (drains : Drains buffer events rest)
    (ordered : LineFeedsFirst (buffer ++ more)) (drainsMore : Drains (rest ++ more) later final) :
    Drains (buffer ++ more) (events ++ later) final := by
  induction drains with
  | settled => exact drainsMore
  | @cut buffer rest events boundary separatorLength found _ ih =>
      have fits := findEventBoundary_fits found
      have restOrdered := ordered.drop (boundary + separatorLength)
      have others : Drains ((buffer ++ more).drop (boundary + separatorLength))
          (events ++ later) final := by
        rw [List.drop_append_of_le_length fits.2] at restOrdered ⊢
        exact ih restOrdered drainsMore
      have cutAgain := Drains.cut (findEventBoundary_append ordered found) others
      rw [List.take_append_of_le_length (by omega)] at cutAgain
      rw [List.append_assoc]
      exact cutAgain

theorem push_drains (buffer chunk : List UInt8) :
    Drains (buffer ++ chunk) (push buffer chunk).1 (push buffer chunk).2 :=
  drainEvents_drains (Nat.le_refl _)

theorem pushAll_drains {buffer : List UInt8} (settled : findEventBoundary buffer = none)
    (chunks : List (List UInt8)) (ordered : LineFeedsFirst (buffer ++ chunks.flatten)) :
    ∃ rest, Drains (buffer ++ chunks.flatten) (pushAll buffer chunks) rest := by
  induction chunks generalizing buffer with
  | nil => exact ⟨buffer, by simpa [pushAll] using Drains.settled settled⟩
  | cons chunk chunks ih =>
      have drains := push_drains buffer chunk
      rw [List.flatten_cons, ← List.append_assoc] at ordered ⊢
      have restOrdered : LineFeedsFirst ((push buffer chunk).2 ++ chunks.flatten) := by
        rcases drains.isSuffix with ⟨processed, processedEq⟩
        rw [← processedEq, List.append_assoc] at ordered
        have dropped := ordered.drop processed.length
        rwa [List.drop_left] at dropped
      rcases ih drains.settled_rest restOrdered with ⟨rest, drainsRest⟩
      exact ⟨rest, drains.append ordered drainsRest⟩

end Brunomnia.Streaming
