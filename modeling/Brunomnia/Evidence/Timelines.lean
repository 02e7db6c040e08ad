import Brunomnia.Evidence.Responses

/-!
# Evidence of timelines

What the snapshot of a timeline shows of it. Its entries are redacted before they are taken, and
the first one that does not fit is the last one in the snapshot.
-/

namespace Brunomnia.Evidence

open Library

variable (platform : UrlClass)

/-- An entry as a snapshot shows it. -/
def shownEntry (entry : ResponseTimelineEntry) : ResponseTimelineEntry :=
  { entry with
    value := redactTimelineValue platform entry, elapsedMs := clampElapsed entry.elapsedMs }

def RunnerTimelineSnapshot.keptBytes (snapshot : RunnerTimelineSnapshot) : ℕ :=
  cost (fun entry => byteLength entry.value) snapshot.entries

/-- The entries of a snapshot are the first ones of the timeline, each with a start of what its
value is redacted to. -/
def TimelineStarts (timeline : List ResponseTimelineEntry) (snapshot : RunnerTimelineSnapshot) :
    Prop :=
  ∃ shown, shown <+: timeline ∧
    List.Forall₂ (fun kept entry => StartsText kept.value (redactTimelineValue platform entry))
      snapshot.entries shown

/-- What is not in a snapshot is marked as cut. -/
def TimelineMarks (timeline : List ResponseTimelineEntry) (snapshot : RunnerTimelineSnapshot) :
    Prop :=
  snapshot.entries ≠ timeline.map (shownEntry platform) → snapshot.truncated = true

/-- The texts up to the first one that is cut can be read. -/
def TextsReadable : ℕ → List Text → Prop
  | _, [] => True
  | room, value :: rest =>
      Shown (codePoints value) ((textDemand room value).part CodePoint.size room) ∧
        (byteLength value ≤ room → TextsReadable (room - byteLength value) rest)

instance TextsReadable.decidable : ∀ room texts, Decidable (TextsReadable room texts)
  | _, [] => inferInstanceAs (Decidable True)
  | room, value :: rest =>
      have := TextsReadable.decidable (room - byteLength value) rest
      inferInstanceAs (Decidable (_ ∧ (_ → _)))

/-- The timelines that a snapshot shows as they are. -/
def TimelineReadable (budget : ℤ) (timeline : List ResponseTimelineEntry) : Prop :=
  TextsReadable (allowance runnerTimelinePerResultBytes budget)
    ((timeline.take runnerTimelineEntries).map (redactTimelineValue platform))

instance (budget : ℤ) (timeline : List ResponseTimelineEntry) :
    Decidable (TimelineReadable platform budget timeline) :=
  TextsReadable.decidable _ _

/-! ## One entry -/

section Loop

variable {platform} {entry : ResponseTimelineEntry} {entries rest : List ResponseTimelineEntry}
  {state : TimelineState} {budget : ℤ} {allowed room : ℕ}

/-- What a text of a timeline gets: it has no limit of its own. -/
def entryPart (platform : UrlClass) (room : ℕ) (entry : ResponseTimelineEntry) : Taken :=
  takenPart (redactTimelineValue platform entry)
    ((textDemand room (redactTimelineValue platform entry)).part CodePoint.size room)

/-- What a snapshot keeps of an entry. -/
def keptEntry (platform : UrlClass) (room : ℕ) (entry : ResponseTimelineEntry) :
    ResponseTimelineEntry :=
  { shownEntry platform entry with value := (entryPart platform room entry).value }

theorem take_entry_eq (stands : state.meter.Stands budget allowed room) :
    (state.meter.take (redactTimelineValue platform entry) state.meter.remaining).1 =
      entryPart platform room entry := by
  have taken := stands.take_fst (redactTimelineValue platform entry) room
  rwa [← stands.remaining] at taken

theorem takeEntry_fst (stands : state.meter.Stands budget allowed room) :
    (takeEntry platform entry state).1 = (entryPart platform room entry).truncated := by
  rw [← take_entry_eq stands]
  rfl

theorem takeEntry_entries (stands : state.meter.Stands budget allowed room) :
    (takeEntry platform entry state).2.entries =
      state.entries ++ [keptEntry platform room entry] := by
  rw [keptEntry, ← take_entry_eq stands]
  rfl

theorem takeEntry_truncated (stands : state.meter.Stands budget allowed room) :
    (takeEntry platform entry state).2.truncated =
      (state.truncated || (entryPart platform room entry).truncated) := by
  rw [← take_entry_eq stands]
  rfl

theorem takeEntry_stands (stands : state.meter.Stands budget allowed room) :
    (takeEntry platform entry state).2.meter.Stands budget allowed
      ((textDemand room (redactTimelineValue platform entry)).left CodePoint.size room) := by
  have taken := stands.take_snd (redactTimelineValue platform entry) room
  rwa [← stands.remaining] at taken

/-! ## The loop -/

theorem takeEntries_of_exhausted (exhausted : state.meter.remaining ≤ 0) :
    takeEntries platform (entry :: rest) state = { state with truncated := true } :=
  if_pos exhausted

theorem takeEntries_of_left (left : ¬ state.meter.remaining ≤ 0) :
    takeEntries platform (entry :: rest) state =
      if (takeEntry platform entry state).1 then (takeEntry platform entry state).2
      else takeEntries platform rest (takeEntry platform entry state).2 :=
  if_neg left

theorem takeEntries_accounts (stands : state.meter.Stands budget allowed room) :
    ∃ left, (takeEntries platform entries state).meter.Stands budget allowed left ∧
      cost (fun entry => byteLength entry.value) (takeEntries platform entries state).entries +
          left ≤
        cost (fun entry => byteLength entry.value) state.entries + room := by
  induction entries generalizing state room with
  | nil => exact ⟨room, stands, le_rfl⟩
  | cons entry rest ih =>
      by_cases exhausted : state.meter.remaining ≤ 0
      · rw [takeEntries_of_exhausted exhausted]
        exact ⟨room, stands, le_rfl⟩
      · rw [takeEntries_of_left exhausted]
        have taken : byteLength (entryPart platform room entry).value +
            (textDemand room (redactTimelineValue platform entry)).left CodePoint.size room ≤
              room :=
          byteLength_taken_add_left_le _ _ _
        have kept : cost (fun entry => byteLength entry.value)
            (takeEntry platform entry state).2.entries =
              cost (fun entry => byteLength entry.value) state.entries +
                byteLength (entryPart platform room entry).value := by
          rw [takeEntry_entries stands, cost_append, cost_cons, cost_nil]
          rfl
        split
        case isTrue => exact ⟨_, takeEntry_stands stands, by omega⟩
        case isFalse =>
            rcases ih (takeEntry_stands stands) with ⟨left, lastStands, less⟩
            exact ⟨left, lastStands, by omega⟩

theorem takeEntries_starts (stands : state.meter.Stands budget allowed room)
    (readable : TextsReadable room (entries.map (redactTimelineValue platform))) :
    ∃ kept shown, (takeEntries platform entries state).entries = state.entries ++ kept ∧
      shown <+: entries ∧
        List.Forall₂ (fun kept entry => StartsText kept.value (redactTimelineValue platform entry))
          kept shown := by
  induction entries generalizing state room with
  | nil => exact ⟨[], [], (List.append_nil _).symm, List.prefix_rfl, .nil⟩
  | cons entry rest ih =>
      by_cases exhausted : state.meter.remaining ≤ 0
      · rw [takeEntries_of_exhausted exhausted]
        exact ⟨[], [], (List.append_nil _).symm, List.nil_prefix, .nil⟩
      · rw [takeEntries_of_left exhausted]
        rw [List.map_cons, TextsReadable] at readable
        have starts : StartsText (entryPart platform room entry).value
            (redactTimelineValue platform entry) :=
          (startsText_takenPart_iff (fit_start _ _)).mpr readable.1
        have entriesEq : (takeEntry platform entry state).2.entries =
            state.entries ++ [keptEntry platform room entry] := takeEntry_entries stands
        split
        case isTrue =>
            exact ⟨[keptEntry platform room entry], [entry], entriesEq, List.prefix_append _ _,
              .cons starts .nil⟩
        case isFalse whole =>
            rw [takeEntry_fst stands, Bool.not_eq_true] at whole
            have isPart := takenPart_truncated_eq_false_iff.mp whole
            have restStands : (takeEntry platform entry state).2.meter.Stands budget allowed _ :=
              takeEntry_stands stands
            rw [textDemand_left_eq isPart] at restStands
            rcases ih restStands (readable.2 (textDemand_part_eq_iff.mp isPart).2) with
              ⟨kept, shown, restEq, isStart, starting⟩
            refine ⟨keptEntry platform room entry :: kept, entry :: shown, ?_, ?_,
              .cons starts starting⟩
            · rw [restEq, entriesEq, List.append_assoc, List.singleton_append]
            · exact List.cons_prefix_cons.mpr ⟨rfl, isStart⟩

theorem takeEntries_marks (stands : state.meter.Stands budget allowed room)
    (whole : (takeEntries platform entries state).truncated = false) :
    state.truncated = false ∧ (takeEntries platform entries state).entries =
      state.entries ++ entries.map (shownEntry platform) := by
  induction entries generalizing state room with
  | nil => exact ⟨whole, (List.append_nil _).symm⟩
  | cons entry rest ih =>
      by_cases exhausted : state.meter.remaining ≤ 0
      · rw [takeEntries_of_exhausted exhausted] at whole
        cases whole
      · rw [takeEntries_of_left exhausted] at whole ⊢
        split at whole
        case isTrue cut =>
            rw [takeEntry_fst stands] at cut
            rw [takeEntry_truncated stands, cut, Bool.or_true] at whole
            cases whole
        case isFalse notCut =>
            rw [if_neg notCut]
            rcases ih (takeEntry_stands stands) whole with ⟨before, restEq⟩
            rw [takeEntry_truncated stands, Bool.or_eq_false_iff] at before
            refine ⟨before.1, ?_⟩
            rw [restEq, takeEntry_entries stands, List.append_assoc, List.map_cons, keptEntry,
              entryPart, takenPart_value_of_whole before.2]
            rfl

end Loop

section Timeline

variable (timeline : List ResponseTimelineEntry) (budget : ℤ)

/-- The state of the loop over the entries at its start. -/
def timelineStart : TimelineState :=
  ⟨openMeter runnerTimelinePerResultBytes budget, [], runnerTimelineEntries < timeline.length⟩

/-- The state of the loop over the entries at its end. -/
def timelineEnd : TimelineState :=
  takeEntries platform (timeline.take runnerTimelineEntries) (timelineStart timeline budget)

theorem timelineStart_stands :
    (timelineStart timeline budget).meter.Stands budget
      (allowance runnerTimelinePerResultBytes budget)
      (allowance runnerTimelinePerResultBytes budget) :=
  openMeter_stands (by decide) budget

theorem captureRunnerTimeline_eq :
    captureRunnerTimeline platform timeline budget =
      (⟨(timelineEnd platform timeline budget).entries,
        (timelineEnd platform timeline budget).truncated,
        (timelineEnd platform timeline budget).meter.storedBytes⟩,
        (timelineEnd platform timeline budget).meter.budget) := rfl

theorem captureRunnerTimeline_accounts :
    Accounts runnerTimelinePerResultBytes budget (captureRunnerTimeline platform timeline budget).2
      (captureRunnerTimeline platform timeline budget).1.keptBytes
      (captureRunnerTimeline platform timeline budget).1.storedBytes := by
  have accounts : ∃ left, (timelineEnd platform timeline budget).meter.Stands budget
      (allowance runnerTimelinePerResultBytes budget) left ∧
        cost (fun entry => byteLength entry.value) (timelineEnd platform timeline budget).entries +
            left ≤ 0 + allowance runnerTimelinePerResultBytes budget :=
    takeEntries_accounts (timelineStart_stands timeline budget)
  rcases accounts with ⟨left, stands, less⟩
  rw [Nat.zero_add] at less
  exact stands.accounts (by decide) less

variable {timeline budget}

theorem captureRunnerTimeline_starts (readable : TimelineReadable platform budget timeline) :
    TimelineStarts platform timeline (captureRunnerTimeline platform timeline budget).1 := by
  rcases takeEntries_starts (timelineStart_stands timeline budget) readable with
    ⟨kept, shown, isKept, isStart, starts⟩
  refine ⟨shown, isStart.trans (List.take_prefix _ _), ?_⟩
  have isEnd : (timelineEnd platform timeline budget).entries = kept := isKept
  rw [captureRunnerTimeline_eq, isEnd]
  exact starts

theorem captureRunnerTimeline_marks :
    TimelineMarks platform timeline (captureRunnerTimeline platform timeline budget).1 := by
  intro lost
  by_contra cut
  have whole := takeEntries_marks (timelineStart_stands timeline budget)
    (Bool.eq_false_of_not_eq_true cut)
  have few : timeline.length ≤ runnerTimelineEntries := by
    simpa [timelineStart] using whole.1
  apply lost
  rw [captureRunnerTimeline_eq]
  dsimp only
  rw [timelineEnd, whole.2, List.take_of_length_le few]
  rfl

end Timeline

end Brunomnia.Evidence
