import Brunomnia.Runner.State

/-!
# Items of a run

The items stay the same ones, and a finished item keeps its status.
-/

namespace Brunomnia.Runner

open Codegen (Text)

/-- An item later in a run. -/
structure KeepsItem (item later : LiveItem) : Prop where
  key : later.key = item.key
  status : isRunnerItemFinished item.status = true → later.status = item.status

/-- The items later in a run. -/
def Keeps (items later : List LiveItem) : Prop :=
  List.Forall₂ KeepsItem items later

theorem KeepsItem.refl (item : LiveItem) : KeepsItem item item := ⟨rfl, fun _ => rfl⟩

theorem KeepsItem.trans {item later last : LiveItem} (first : KeepsItem item later)
    (second : KeepsItem later last) : KeepsItem item last := by
  refine ⟨second.key.trans first.key, ?_⟩
  intro finished
  have same := first.status finished
  rw [← same] at finished
  exact (second.status finished).trans same

theorem Keeps.refl (items : List LiveItem) : Keeps items items :=
  List.forall₂_same.mpr fun item _ => KeepsItem.refl item

theorem Keeps.trans {items later last : List LiveItem} (first : Keeps items later)
    (second : Keeps later last) : Keeps items last := by
  unfold Keeps at *
  induction first generalizing last with
  | nil => exact second
  | cons keeps _ ih =>
      cases second with
      | cons keepsLater others => exact .cons (keeps.trans keepsLater) (ih others)

theorem Keeps.keys {items later : List LiveItem} (keeps : Keeps items later) :
    later.map LiveItem.key = items.map LiveItem.key := by
  unfold Keeps at keeps
  induction keeps with
  | nil => rfl
  | cons keepsItem _ ih => rw [List.map_cons, List.map_cons, keepsItem.key, ih]

theorem Keeps.map {change : LiveItem → LiveItem} (items : List LiveItem)
    (keeps : ∀ item ∈ items, KeepsItem item (change item)) : Keeps items (items.map change) := by
  unfold Keeps
  rw [List.forall₂_map_right_iff]
  exact List.forall₂_same.mpr keeps

theorem Keeps.updateFirst {change : LiveItem → LiveItem} (key : ItemKey)
    (items : List LiveItem) (keeps : ∀ item ∈ items, KeepsItem item (change item)) :
    Keeps items (RunnerState.updateFirst key change items) := by
  induction items with
  | nil => exact Keeps.refl []
  | cons item items ih =>
      unfold RunnerState.updateFirst
      split
      · exact .cons (keeps item (by simp)) (Keeps.refl items)
      · exact .cons (KeepsItem.refl item)
          (ih fun other otherMem => keeps other (by simp [otherMem]))

/-- Every item with a key is finished. -/
def Finished (key : ItemKey) (items : List LiveItem) : Prop :=
  ∀ item ∈ items, item.key = key → isRunnerItemFinished item.status = true

def AllFinished (items : List LiveItem) : Prop :=
  ∀ item ∈ items, isRunnerItemFinished item.status = true

theorem Finished.keeps {key : ItemKey} {items later : List LiveItem}
    (finished : Finished key items) (keeps : Keeps items later) : Finished key later := by
  unfold Keeps at keeps
  induction keeps with
  | nil => exact finished
  | @cons item laterItem items later keepsItem _ ih =>
      intro other otherMem isKey
      rcases List.mem_cons.mp otherMem with rfl | otherLater
      · have itemFinished := finished item (by simp) (keepsItem.key.symm.trans isKey)
        rw [keepsItem.status itemFinished]
        exact itemFinished
      · exact ih (fun other otherMem => finished other (by simp [otherMem])) other otherLater isKey

theorem finished_updateFirst {key : ItemKey} {change : LiveItem → LiveItem}
    {items : List LiveItem} (nodup : (items.map LiveItem.key).Nodup)
    (finishes : ∀ item, isRunnerItemFinished (change item).status = true) :
    Finished key (RunnerState.updateFirst key change items) := by
  induction items with
  | nil => exact fun _ itemMem => absurd itemMem List.not_mem_nil
  | cons item items ih =>
      rw [List.map_cons, List.nodup_cons] at nodup
      unfold RunnerState.updateFirst
      split
      case isTrue isKey =>
        intro other otherMem otherKey
        rcases List.mem_cons.mp otherMem with rfl | later
        · exact finishes item
        · rw [isKey, ← otherKey] at nodup
          exact absurd (List.mem_map_of_mem later) nodup.1
      case isFalse notKey =>
        intro other otherMem otherKey
        rcases List.mem_cons.mp otherMem with rfl | later
        · exact absurd otherKey notKey
        · exact ih nodup.2 other later otherKey

namespace RunnerState

variable (state : RunnerState)

theorem nextStatus_of_finished {current : ItemStatus}
    (finished : isRunnerItemFinished current = true) (status : Option ItemStatus) :
    nextStatus current status = current := by
  unfold nextStatus
  cases status with
  | none => rfl
  | some status => exact if_pos finished

theorem keeps_updateLiveItem (key : ItemKey) (status : Option ItemStatus) (patch : ItemPatch) :
    Keeps state.liveItems (state.updateLiveItem key status patch).liveItems := by
  unfold updateLiveItem
  split
  · apply Keeps.updateFirst
    intro item _
    exact ⟨rfl, fun finished => nextStatus_of_finished finished status⟩
  · exact Keeps.refl _

theorem keeps_finishUnfinished (status : ItemStatus) (errorMessage : Text) :
    Keeps state.liveItems (state.finishUnfinished status errorMessage).liveItems := by
  unfold finishUnfinished
  split
  · apply Keeps.map
    intro item _
    by_cases finished : isRunnerItemFinished item.status = true
    · rw [if_pos finished]
      exact KeepsItem.refl item
    · rw [if_neg finished]
      exact ⟨rfl, fun isFinished => absurd isFinished finished⟩
  · exact Keeps.refl _

theorem finished_updateLiveItem {key : ItemKey} {status : ItemStatus}
    (nodup : (state.liveItems.map LiveItem.key).Nodup)
    (finishes : isRunnerItemFinished status = true) (patch : ItemPatch) :
    Finished key (state.updateLiveItem key (some status) patch).liveItems := by
  unfold updateLiveItem
  split
  case isTrue =>
    apply finished_updateFirst nodup
    intro item
    dsimp only [nextStatus]
    split
    case isTrue finished => exact finished
    case isFalse => exact finishes
  case isFalse missing =>
    intro item itemMem isKey
    exact absurd ⟨item, itemMem, isKey⟩ missing

theorem finished_finishUnfinished {status : ItemStatus}
    (finishes : isRunnerItemFinished status = true) (errorMessage : Text) :
    AllFinished (state.finishUnfinished status errorMessage).liveItems := by
  unfold finishUnfinished
  split
  case isTrue =>
    intro item itemMem
    obtain ⟨old, _, rfl⟩ := List.mem_map.mp itemMem
    split
    case isTrue finished => exact finished
    case isFalse => exact finishes
  case isFalse allFinished =>
    intro item itemMem
    by_contra unfinished
    rw [Bool.not_eq_true] at unfinished
    exact allFinished ⟨item, itemMem, unfinished⟩

end RunnerState

end Brunomnia.Runner
