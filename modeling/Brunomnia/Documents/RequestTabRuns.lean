import Brunomnia.Documents.RequestTabs
import Brunomnia.Library.Lists
import Brunomnia.Library.Runs

/-!
# Runs of document tab operations

What a state of document tabs keeps through every operation: distinct open ids, one
temporary tab, an active id that is open, a history of other open tabs, and closed ids
that are not open. Opening a document looks for its id and its type together, and an
id that is open with another type is then opened once more; every other step keeps
the states well formed.
-/

namespace Brunomnia.Documents

open Library

structure TabsWellFormed (state : RequestTabState) : Prop where
  idsNodup : state.ids.Nodup
  bounded : state.tabs.length ≤ 100
  oneTemporary : state.tabs.countP RequestDocumentTab.temporary ≤ 1
  activeOpen : state.tabs ≠ [] → state.activeRequestId ∈ state.ids
  activeEmpty : state.tabs = [] → state.activeRequestId = ""
  historyNodup : state.history.Nodup
  historyOpen : ∀ id ∈ state.history, id ∈ state.ids ∧ id ≠ state.activeRequestId
  closedNodup : state.closed.Nodup
  closedBounded : state.closed.length ≤ 50
  closedShut : ∀ id ∈ state.closed, id ∉ state.ids
  dashboardEmpty : state.dashboard = true → state.tabs = []

/-- What a state has to satisfy for a tab to be activated in it. -/
structure Activatable (state : RequestTabState) (requestId : String) : Prop where
  idsNodup : state.ids.Nodup
  bounded : state.tabs.length ≤ 100
  oneTemporary : state.tabs.countP RequestDocumentTab.temporary ≤ 1
  isOpen : requestId ∈ state.ids
  historyNodup : state.history.Nodup
  historyOpen : ∀ id ∈ state.history, id ∈ state.ids ∧ id ≠ state.activeRequestId
  closedNodup : state.closed.Nodup
  closedBounded : state.closed.length ≤ 50
  closedShut : ∀ id ∈ state.closed, id ∈ state.ids → id = requestId

theorem emptyRequestTabState_wellFormed : TabsWellFormed emptyRequestTabState := by
  constructor <;> simp [emptyRequestTabState, RequestTabState.ids]

theorem TabsWellFormed.activatable {state : RequestTabState} {requestId : String}
    (wellFormed : TabsWellFormed state) (isOpen : requestId ∈ state.ids) :
    Activatable state requestId where
  idsNodup := wellFormed.idsNodup
  bounded := wellFormed.bounded
  oneTemporary := wellFormed.oneTemporary
  isOpen := isOpen
  historyNodup := wellFormed.historyNodup
  historyOpen := wellFormed.historyOpen
  closedNodup := wellFormed.closedNodup
  closedBounded := wellFormed.closedBounded
  closedShut id idClosed idOpen := absurd idOpen (wellFormed.closedShut id idClosed)

theorem activate_tabs (state : RequestTabState) (requestId : String) :
    (activate state requestId).tabs = state.tabs := by
  unfold activate
  split
  · rfl
  · split <;> rfl

section Activate

variable {state : RequestTabState} {requestId : String}

theorem ids_ne_nil (isOpen : requestId ∈ state.ids) : state.tabs ≠ [] := by
  intro noTabs
  simp [RequestTabState.ids, noTabs] at isOpen

theorem activate_history (activatable : Activatable state requestId)
    (different : state.activeRequestId ≠ requestId) :
    (activate state requestId).history.Nodup ∧
      ∀ id ∈ (activate state requestId).history, id ∈ state.ids ∧ id ≠ requestId := by
  simp only [activate, activatable.isOpen, not_true_eq_false, if_false, different]
  split
  case isTrue wasOpen =>
    constructor
    · apply List.Nodup.sublist (List.take_sublist _ _)
      rw [List.nodup_cons]
      exact ⟨by simp, activatable.historyNodup.filter _⟩
    · intro id idMem
      rcases List.mem_cons.mp (List.mem_of_mem_take idMem) with rfl | inHistory
      · exact ⟨wasOpen.2, different⟩
      · rw [List.mem_filter, decide_eq_true_eq] at inHistory
        exact ⟨(activatable.historyOpen id inHistory.1).1, inHistory.2.2⟩
  case isFalse =>
    constructor
    · exact (activatable.historyNodup.filter _).sublist (List.take_sublist _ _)
    · intro id idMem
      have inHistory := List.mem_of_mem_take idMem
      rw [List.mem_filter, decide_eq_true_eq] at inHistory
      exact ⟨(activatable.historyOpen id inHistory.1).1, inHistory.2⟩

theorem activate_wellFormed (activatable : Activatable state requestId) :
    TabsWellFormed (activate state requestId) := by
  have closedShut : ∀ id ∈ state.closed.filter (fun id => id ≠ requestId), id ∉ state.ids := by
    intro id idMem idOpen
    rw [List.mem_filter, decide_eq_true_eq] at idMem
    exact idMem.2 (activatable.closedShut id idMem.1 idOpen)
  have closedBounded : (state.closed.filter fun id => id ≠ requestId).length ≤ 50 :=
    (List.length_filter_le _ _).trans activatable.closedBounded
  by_cases same : state.activeRequestId = requestId
  · simp only [activate, activatable.isOpen, not_true_eq_false, if_false, same, if_true]
    exact {
      idsNodup := activatable.idsNodup
      bounded := activatable.bounded
      oneTemporary := activatable.oneTemporary
      activeOpen := fun _ => same ▸ activatable.isOpen
      activeEmpty := fun noTabs => absurd noTabs (ids_ne_nil activatable.isOpen)
      historyNodup := activatable.historyNodup
      historyOpen := fun id idMem => same ▸ activatable.historyOpen id idMem
      closedNodup := activatable.closedNodup.filter _
      closedBounded := closedBounded
      closedShut := closedShut
      dashboardEmpty := fun shown => absurd shown (by simp) }
  · have history := activate_history activatable same
    simp only [activate, activatable.isOpen, not_true_eq_false, if_false, same] at history ⊢
    exact {
      idsNodup := activatable.idsNodup
      bounded := activatable.bounded
      oneTemporary := activatable.oneTemporary
      activeOpen := fun _ => activatable.isOpen
      activeEmpty := fun noTabs => absurd noTabs (ids_ne_nil activatable.isOpen)
      historyNodup := history.1
      historyOpen := history.2
      closedNodup := activatable.closedNodup.filter _
      closedBounded := closedBounded
      closedShut := closedShut
      dashboardEmpty := fun shown => absurd shown (by simp) }

end Activate

/-! ## Promoting and moving tabs -/

theorem promoteTabs_ids (tabs : List RequestDocumentTab) (requestId : String) :
    (promoteTabs tabs requestId).map RequestDocumentTab.requestId =
      tabs.map RequestDocumentTab.requestId := by
  unfold promoteTabs
  rw [List.map_map]
  apply List.map_congr_left
  intro tab _
  by_cases sameId : tab.requestId = requestId <;> simp [sameId]

theorem promoteTabs_temporary (tabs : List RequestDocumentTab) (requestId : String) :
    (promoteTabs tabs requestId).countP RequestDocumentTab.temporary ≤
      tabs.countP RequestDocumentTab.temporary := by
  unfold promoteTabs
  rw [List.countP_map]
  apply List.countP_mono_left
  intro tab _
  by_cases sameId : tab.requestId = requestId <;> simp [sameId]

/-- Tabs with the same ids and no more temporary ones keep a state well formed. -/
theorem TabsWellFormed.with_tabs {state : RequestTabState} (wellFormed : TabsWellFormed state)
    {tabs : List RequestDocumentTab}
    (sameIds : (tabs.map RequestDocumentTab.requestId).Perm state.ids)
    (temporary : tabs.countP RequestDocumentTab.temporary ≤
      state.tabs.countP RequestDocumentTab.temporary) :
    TabsWellFormed { state with tabs } := by
  have sameLength : tabs.length = state.tabs.length := by
    simpa [RequestTabState.ids] using sameIds.length_eq
  have noTabs_iff : tabs = [] ↔ state.tabs = [] := by
    rw [← List.length_eq_zero_iff, sameLength, List.length_eq_zero_iff]
  exact {
    idsNodup := sameIds.nodup_iff.mpr wellFormed.idsNodup
    bounded := sameLength ▸ wellFormed.bounded
    oneTemporary := temporary.trans wellFormed.oneTemporary
    activeOpen := fun someTabs =>
      sameIds.mem_iff.mpr (wellFormed.activeOpen (mt noTabs_iff.mpr someTabs))
    activeEmpty := fun noTabs => wellFormed.activeEmpty (noTabs_iff.mp noTabs)
    historyNodup := wellFormed.historyNodup
    historyOpen := fun id idMem =>
      ⟨sameIds.mem_iff.mpr (wellFormed.historyOpen id idMem).1,
        (wellFormed.historyOpen id idMem).2⟩
    closedNodup := wellFormed.closedNodup
    closedBounded := wellFormed.closedBounded
    closedShut := fun id idMem idOpen =>
      wellFormed.closedShut id idMem (sameIds.mem_iff.mp idOpen)
    dashboardEmpty := fun shown => noTabs_iff.mpr (wellFormed.dashboardEmpty shown) }

section Steps

variable {state : RequestTabState} {requestId : String}

theorem promoteTabs_wellFormed (wellFormed : TabsWellFormed state) :
    TabsWellFormed { state with tabs := promoteTabs state.tabs requestId } := by
  apply wellFormed.with_tabs
  · rw [promoteTabs_ids]
    rfl
  · exact promoteTabs_temporary _ _

theorem promoteRequestTab_wellFormed (wellFormed : TabsWellFormed state) :
    TabsWellFormed (promoteRequestTab state requestId) := by
  unfold promoteRequestTab
  split
  · exact promoteTabs_wellFormed wellFormed
  · exact wellFormed

theorem moveRequestTab_wellFormed (wellFormed : TabsWellFormed state)
    (targetRequestId : String) (placement : RequestTabPlacement) :
    TabsWellFormed (moveRequestTab state requestId targetRequestId placement) := by
  unfold moveRequestTab
  split
  case h_1 => exact wellFormed
  case h_2 tab found =>
    split
    case isTrue => exact wellFormed
    case isFalse moved =>
      have tabMem := List.mem_of_find?_eq_some found
      have tabId : tab.requestId = requestId := by
        simpa using List.find?_some found
      have kept := filter_ne_perm RequestDocumentTab.requestId wellFormed.idsNodup tabMem
      rw [tabId] at kept
      have perm : ∀ index ≤ (state.tabs.filter fun candidate =>
          candidate.requestId ≠ requestId).length,
          ((state.tabs.filter fun candidate => candidate.requestId ≠ requestId).insertIdx
            index tab).Perm state.tabs :=
        fun index inRange => (List.perm_insertIdx tab _ inRange).trans kept.symm
      have targetMem : targetRequestId ∈ (state.tabs.filter fun candidate =>
          candidate.requestId ≠ requestId).map RequestDocumentTab.requestId := by
        rw [not_or, not_not] at moved
        rcases List.mem_map.mp moved.2 with ⟨target, targetTab, rfl⟩
        apply List.mem_map_of_mem
        rw [List.mem_filter, decide_eq_true_eq]
        exact ⟨targetTab, fun sameId => moved.1 sameId.symm⟩
      have inRange := List.idxOf_lt_length_of_mem targetMem
      rw [List.length_map] at inRange
      apply wellFormed.with_tabs
      · apply (perm _ _).map
        cases placement
        · exact Nat.le_of_lt inRange
        · exact inRange
      · apply Nat.le_of_eq
        apply (perm _ _).countP_eq
        cases placement
        · exact Nat.le_of_lt inRange
        · exact inRange

theorem cycleRequestTab_wellFormed (wellFormed : TabsWellFormed state)
    (direction : CycleDirection) : TabsWellFormed (cycleRequestTab state direction) := by
  unfold cycleRequestTab
  split
  · exact wellFormed
  · dsimp only
    split
    case h_1 target found =>
      exact activate_wellFormed (wellFormed.activatable (List.mem_of_getElem? found))
    case h_2 => exact wellFormed

end Steps

/-! ## Opening documents -/

/-- When opening a document keeps the ids of the open tabs distinct. -/
def OpenAllowed (state : RequestTabState) (requestId : String) (type : DocumentTabType)
    (permanent : Bool) : Prop :=
  requestId = "" ∨ requestId ∉ state.ids ∨
    (∃ tab ∈ state.tabs, tab.requestId = requestId ∧ tab.type = type) ∨
    (permanent = false ∧ ∃ tab ∈ state.tabs, tab.requestId = requestId ∧ tab.temporary) ∨
    (100 ≤ state.tabs.length ∧ (permanent ∨ ∀ tab ∈ state.tabs, tab.temporary = false))

section Open

variable {state : RequestTabState} {requestId : String} {type : DocumentTabType}

/-- Replacing the temporary tab of a well-formed state by a tab for another document. -/
theorem activatable_replaced (wellFormed : TabsWellFormed state) {index : ℕ}
    {replaced : RequestDocumentTab} (at_index : state.tabs[index]? = some replaced)
    (wasTemporary : replaced.temporary = true)
    (fits : requestId ∉ state.ids ∨ replaced.requestId = requestId) :
    Activatable
      { state with
        tabs := state.tabs.set index { requestId, type, temporary := true }
        history := state.history.filter fun id => id ≠ replaced.requestId }
      requestId := by
  rcases List.getElem?_eq_some_iff.mp at_index with ⟨inRange, atIndex⟩
  have idAt : state.ids[index]? = some replaced.requestId := by
    simp [RequestTabState.ids, at_index]
  have newIds : (state.tabs.set index { requestId, type, temporary := true }).map
      RequestDocumentTab.requestId = state.ids.set index requestId := List.map_set
  have others : ∀ id ∈ state.ids, id ≠ replaced.requestId →
      id ∈ state.ids.set index requestId := by
    intro id idMem different
    rcases List.mem_iff_getElem?.mp idMem with ⟨position, atPosition⟩
    rw [List.mem_iff_getElem?]
    refine ⟨position, ?_⟩
    rw [List.getElem?_set_ne, atPosition]
    rintro rfl
    rw [idAt] at atPosition
    exact different (Option.some.inj atPosition).symm
  exact {
    idsNodup := by
      unfold RequestTabState.ids
      rw [newIds]
      rcases fits with fresh | rfl
      · exact wellFormed.idsNodup.set fresh
      · rw [set_self_of_getElem? idAt]
        exact wellFormed.idsNodup
    bounded := by simpa using wellFormed.bounded
    oneTemporary := by
      have before := wellFormed.oneTemporary
      rw [List.countP_set inRange, atIndex, wasTemporary]
      simp only [if_true]
      omega
    isOpen := by
      unfold RequestTabState.ids
      rw [newIds]
      exact List.mem_set (by simpa [RequestTabState.ids] using inRange) _
    historyNodup := wellFormed.historyNodup.filter _
    historyOpen := by
      intro id idMem
      rw [List.mem_filter, decide_eq_true_eq] at idMem
      rcases wellFormed.historyOpen id idMem.1 with ⟨idOpen, notActive⟩
      unfold RequestTabState.ids
      rw [newIds]
      exact ⟨others id idOpen idMem.2, notActive⟩
    closedNodup := wellFormed.closedNodup
    closedBounded := wellFormed.closedBounded
    closedShut := by
      intro id idClosed idOpen
      unfold RequestTabState.ids at idOpen
      rw [newIds] at idOpen
      rcases List.mem_or_eq_of_mem_set idOpen with old | new
      · exact absurd old (wellFormed.closedShut id idClosed)
      · exact new }

theorem ids_append (state : RequestTabState) (tab : RequestDocumentTab) :
    (state.tabs ++ [tab]).map RequestDocumentTab.requestId = state.ids ++ [tab.requestId] := by
  simp [RequestTabState.ids]

/-- Appending a tab for a document that is not open. -/
theorem activatable_appended (wellFormed : TabsWellFormed state) (fresh : requestId ∉ state.ids)
    (room : state.tabs.length < maxOpenTabs) {temporary : Bool}
    (single : temporary = true → ∀ tab ∈ state.tabs, tab.temporary = false) :
    Activatable { state with tabs := state.tabs ++ [{ requestId, type, temporary }] }
      requestId := by
  have newIds := ids_append state ⟨requestId, type, temporary⟩
  dsimp only at newIds
  exact {
    idsNodup := by
      unfold RequestTabState.ids
      rw [newIds, List.nodup_append]
      refine ⟨wellFormed.idsNodup, by simp, ?_⟩
      intro id idMem other otherMem sameId
      rw [List.mem_singleton] at otherMem
      exact fresh (otherMem ▸ sameId ▸ idMem)
    bounded := by
      unfold maxOpenTabs at room
      rw [List.length_append, List.length_singleton]
      omega
    oneTemporary := by
      have before := wellFormed.oneTemporary
      rw [List.countP_append, List.countP_singleton]
      cases temporary with
      | false => simpa using before
      | true =>
          have none : state.tabs.countP RequestDocumentTab.temporary = 0 := by
            rw [List.countP_eq_zero]
            simpa using single rfl
          simp [none]
    isOpen := by
      unfold RequestTabState.ids
      rw [newIds]
      simp
    historyNodup := wellFormed.historyNodup
    historyOpen := by
      intro id idMem
      rcases wellFormed.historyOpen id idMem with ⟨idOpen, notActive⟩
      unfold RequestTabState.ids
      rw [newIds]
      exact ⟨List.mem_append_left _ idOpen, notActive⟩
    closedNodup := wellFormed.closedNodup
    closedBounded := wellFormed.closedBounded
    closedShut := by
      intro id idClosed idOpen
      unfold RequestTabState.ids at idOpen
      rw [newIds, List.mem_append, List.mem_singleton] at idOpen
      exact idOpen.resolve_left (wellFormed.closedShut id idClosed) }

/-- What opening a document does: nothing, showing its tab, or adding one in the place of
the temporary tab or at the end. -/
inductive Opening (state : RequestTabState) (requestId : String) (type : DocumentTabType)
    (permanent : Bool) : RequestTabState → Prop where
  | unchanged (reason : requestId = "" ∨ (100 ≤ state.tabs.length ∧
      (permanent ∨ ∀ tab ∈ state.tabs, tab.temporary = false))) :
      Opening state requestId type permanent state
  | shown (isOpen : ∃ tab ∈ state.tabs, tab.requestId = requestId ∧ tab.type = type) :
      Opening state requestId type permanent (activate
        { state with tabs := if permanent then promoteTabs state.tabs requestId else state.tabs }
        requestId)
  | replaced (index : ℕ) (tab : RequestDocumentTab) (at_index : state.tabs[index]? = some tab)
      (wasTemporary : tab.temporary = true) (preview : permanent = false)
      (named : requestId ≠ "")
      (notShown : ¬∃ tab ∈ state.tabs, tab.requestId = requestId ∧ tab.type = type) :
      Opening state requestId type permanent (activate
        { state with
          tabs := state.tabs.set index { requestId, type, temporary := true }
          history := state.history.filter fun id => id ≠ tab.requestId }
        requestId)
  | appended (room : state.tabs.length < maxOpenTabs)
      (single : permanent ∨ ∀ tab ∈ state.tabs, tab.temporary = false)
      (named : requestId ≠ "")
      (notShown : ¬∃ tab ∈ state.tabs, tab.requestId = requestId ∧ tab.type = type) :
      Opening state requestId type permanent (activate
        { state with tabs := state.tabs ++ [{ requestId, type, temporary := !permanent }] }
        requestId)

theorem openDocumentTab_cases (state : RequestTabState) (requestId : String)
    (type : DocumentTabType) (permanent : Bool) :
    Opening state requestId type permanent (openDocumentTab state requestId type permanent) := by
  unfold openDocumentTab
  split
  case isTrue empty => exact .unchanged (.inl empty)
  case isFalse named =>
    split
    case isTrue isOpen => exact .shown isOpen
    case isFalse notShown =>
      split
      case h_1 index found =>
        cases permanent with
        | true => simp at found
        | false =>
            rcases List.findIdx?_eq_some_iff_getElem.mp found with ⟨inRange, isTemporary, _⟩
            have at_index := List.getElem?_eq_getElem inRange
            simp only [at_index, Option.map_some, Option.getD_some]
            exact .replaced index _ at_index isTemporary rfl named notShown
      case h_2 notFound =>
        have single : permanent ∨ ∀ tab ∈ state.tabs, tab.temporary = false := by
          cases permanent with
          | true => exact .inl rfl
          | false => exact .inr (by simpa using notFound)
        split
        case isTrue room => exact .appended room single named notShown
        case isFalse full =>
          unfold maxOpenTabs at full
          exact .unchanged (.inr ⟨by omega, single⟩)

/-- A document whose id is open with another type is opened a second time. -/
theorem opening_wellFormed_iff (wellFormed : TabsWellFormed state) {permanent : Bool}
    {opened : RequestTabState} (opening : Opening state requestId type permanent opened) :
    TabsWellFormed opened ↔ OpenAllowed state requestId type permanent := by
  cases opening with
  | unchanged reason =>
      refine ⟨fun _ => ?_, fun _ => wellFormed⟩
      rcases reason with empty | full
      · exact .inl empty
      · exact .inr (.inr (.inr (.inr full)))
  | shown isOpen =>
      refine ⟨fun _ => .inr (.inr (.inl isOpen)), fun _ => ?_⟩
      rcases isOpen with ⟨tab, tabMem, rfl, _⟩
      have isOpen : tab.requestId ∈ state.ids := List.mem_map_of_mem tabMem
      cases permanent with
      | false => exact activate_wellFormed (wellFormed.activatable isOpen)
      | true =>
          apply activate_wellFormed
          apply (promoteTabs_wellFormed wellFormed).activatable
          simpa only [RequestTabState.ids, if_true, promoteTabs_ids] using isOpen
  | replaced index tab at_index wasTemporary preview named notShown =>
      have tabMem := List.mem_of_getElem? at_index
      constructor
      · intro opened
        have idAt : state.ids[index]? = some tab.requestId := by
          simp [RequestTabState.ids, at_index]
        have distinct := opened.idsNodup
        unfold RequestTabState.ids at distinct
        rw [activate_tabs, List.map_set] at distinct
        rcases (nodup_set_iff wellFormed.idsNodup idAt).mp distinct with fresh | sameId
        · exact .inr (.inl fresh)
        · exact .inr (.inr (.inr (.inl ⟨preview, tab, tabMem, sameId, wasTemporary⟩)))
      · intro allowed
        apply activate_wellFormed
        apply activatable_replaced wellFormed at_index wasTemporary
        rcases allowed with empty | fresh | isShown | ⟨_, other, otherMem, sameId, otherTemporary⟩ |
          ⟨_, full⟩
        · exact absurd empty named
        · exact .inl fresh
        · exact absurd isShown notShown
        · right
          rw [eq_of_countP_le_one wellFormed.oneTemporary tabMem otherMem wasTemporary
            otherTemporary]
          exact sameId
        · rcases full with permanently | noTemporary
          · simp [preview] at permanently
          · simp [noTemporary tab tabMem] at wasTemporary
  | appended room single named notShown =>
      constructor
      · intro opened
        have distinct := opened.idsNodup
        unfold RequestTabState.ids at distinct
        rw [activate_tabs, ids_append] at distinct
        right
        left
        intro isOpen
        exact List.disjoint_of_nodup_append distinct isOpen (by simp)
      · intro allowed
        apply activate_wellFormed
        have fresh : requestId ∉ state.ids := by
          rcases allowed with empty | fresh | isShown | ⟨preview, other, otherMem, _, temporary⟩ |
            ⟨full, _⟩
          · exact absurd empty named
          · exact fresh
          · exact absurd isShown notShown
          · simp [preview] at single
            simp [single other otherMem] at temporary
          · unfold maxOpenTabs at room
            omega
        apply activatable_appended wellFormed fresh room
        intro preview
        exact single.resolve_left (by simpa using preview)

theorem openDocumentTab_wellFormed_iff (wellFormed : TabsWellFormed state)
    (requestId : String) (type : DocumentTabType) (permanent : Bool) :
    TabsWellFormed (openDocumentTab state requestId type permanent) ↔
      OpenAllowed state requestId type permanent :=
  opening_wellFormed_iff wellFormed (openDocumentTab_cases state requestId type permanent)

end Open

/-! ## Closing documents -/

theorem lastClosed_sublist (ids : List String) : (lastClosed ids).Sublist ids :=
  List.drop_sublist _ _

theorem lastClosed_length (ids : List String) : (lastClosed ids).length ≤ 50 := by
  unfold lastClosed maxClosedTabs
  rw [List.length_drop]
  omega

theorem lastClosed_append_nodup {closed closing : List String} (closedNodup : closed.Nodup)
    (closingNodup : closing.Nodup) {keeps : String → Bool}
    (dropped : ∀ id ∈ closing, keeps id = false) :
    (lastClosed (closed.filter keeps ++ closing)).Nodup := by
  apply List.Nodup.sublist (lastClosed_sublist _)
  rw [List.nodup_append]
  refine ⟨closedNodup.filter _, closingNodup, ?_⟩
  rintro id idMem _ otherMem rfl
  have kept := (List.mem_filter.mp idMem).2
  simp [dropped id otherMem] at kept

section Close

variable {state : RequestTabState} {requestId : String}

theorem mem_ids_filter {id : String} :
    id ∈ (state.tabs.filter fun tab => tab.requestId ≠ requestId).map
      RequestDocumentTab.requestId ↔ id ∈ state.ids ∧ id ≠ requestId := by
  simp only [RequestTabState.ids, List.mem_map, List.mem_filter, decide_eq_true_eq]
  constructor
  · rintro ⟨tab, ⟨tabMem, different⟩, rfl⟩
    exact ⟨⟨tab, tabMem, rfl⟩, different⟩
  · rintro ⟨⟨tab, tabMem, rfl⟩, different⟩
    exact ⟨tab, ⟨tabMem, different⟩, rfl⟩

theorem mem_of_next {history tabIds : List String} {index : ℕ} {next : String}
    (historyOpen : ∀ id ∈ history, id ∈ tabIds)
    (nextEq : (history.head? <|> tabIds[index]? <|> tabIds.head?) = some next) :
    next ∈ tabIds := by
  cases history with
  | cons recent earlier =>
      simp at nextEq
      exact nextEq ▸ historyOpen recent (by simp)
  | nil =>
      cases atIndex : tabIds[index]? with
      | some id =>
          simp [atIndex] at nextEq
          exact nextEq ▸ List.mem_of_getElem? atIndex
      | none =>
          simp [atIndex] at nextEq
          exact List.mem_of_head? nextEq

theorem closeRequestTab_wellFormed (wellFormed : TabsWellFormed state) (requestId : String) :
    TabsWellFormed (closeRequestTab state requestId) := by
  have closedNodup : (lastClosed ((state.closed.filter fun id => id ≠ requestId) ++
      [requestId])).Nodup := by
    apply lastClosed_append_nodup wellFormed.closedNodup (List.nodup_singleton _)
    simp
  unfold closeRequestTab
  split
  case h_1 => exact wellFormed
  case h_2 index found =>
    dsimp only
    split
    case isTrue =>
      exact {
        idsNodup := by simp [RequestTabState.ids]
        bounded := by simp
        oneTemporary := by simp
        activeOpen := by simp
        activeEmpty := by simp
        historyNodup := List.nodup_nil
        historyOpen := by simp
        closedNodup := closedNodup
        closedBounded := lastClosed_length _
        closedShut := by simp [RequestTabState.ids]
        dashboardEmpty := by simp }
    case isFalse several =>
      split
      case h_1 => exact wellFormed
      case h_2 active activeEq =>
        have someTabs : state.tabs ≠ [] := by
          rintro noTabs
          simp [noTabs] at found
        have activeOpen : active ∈ state.ids ∧ active ≠ requestId := by
          split at activeEq
          case isTrue =>
            apply mem_ids_filter.mp
            apply mem_of_next _ activeEq
            intro id idMem
            rw [List.mem_filter, decide_eq_true_eq] at idMem
            exact idMem.2.2
          case isFalse different =>
            rw [Option.some.injEq] at activeEq
            exact activeEq ▸ ⟨wellFormed.activeOpen someTabs, different⟩
        exact {
          idsNodup := by
            exact wellFormed.idsNodup.sublist ((List.filter_sublist).map _)
          bounded := (List.length_filter_le _ _).trans wellFormed.bounded
          oneTemporary := (List.filter_sublist.countP_le).trans wellFormed.oneTemporary
          activeOpen := fun _ => mem_ids_filter.mpr activeOpen
          activeEmpty := by
            intro noTabs
            have isOpen := mem_ids_filter.mpr activeOpen
            dsimp only at noTabs
            rw [noTabs] at isOpen
            simp at isOpen
          historyNodup := (wellFormed.historyNodup.filter _).filter _
          historyOpen := by
            intro id idMem
            simp only [List.mem_filter, decide_eq_true_eq] at idMem
            exact ⟨idMem.1.2.2, idMem.2⟩
          closedNodup := closedNodup
          closedBounded := lastClosed_length _
          closedShut := by
            intro id idClosed idOpen
            have idOpen := mem_ids_filter.mp idOpen
            have idMem := (lastClosed_sublist _).subset idClosed
            rw [List.mem_append, List.mem_singleton, List.mem_filter] at idMem
            rcases idMem with wasClosed | same
            · exact wellFormed.closedShut id wasClosed.1 idOpen.1
            · exact idOpen.2 same
          dashboardEmpty := by simp }

theorem closeAllRequestTabs_wellFormed (wellFormed : TabsWellFormed state) :
    TabsWellFormed (closeAllRequestTabs state) := by
  unfold closeAllRequestTabs
  split
  · exact wellFormed
  · exact {
      idsNodup := by simp [RequestTabState.ids]
      bounded := by simp
      oneTemporary := by simp
      activeOpen := by simp
      activeEmpty := by simp
      historyNodup := List.nodup_nil
      historyOpen := by simp
      closedNodup := by
        apply lastClosed_append_nodup wellFormed.closedNodup wellFormed.idsNodup
        simp
      closedBounded := lastClosed_length _
      closedShut := by simp [RequestTabState.ids]
      dashboardEmpty := by simp }

theorem closeOtherRequestTabs_wellFormed (wellFormed : TabsWellFormed state)
    (requestId : String) : TabsWellFormed (closeOtherRequestTabs state requestId) := by
  unfold closeOtherRequestTabs
  split
  case h_1 => exact wellFormed
  case h_2 reserved found =>
    split
    case isTrue => exact wellFormed
    case isFalse =>
      have reservedId : reserved.requestId = requestId := by
        simpa using List.find?_some found
      exact {
        idsNodup := by simp [RequestTabState.ids]
        bounded := by simp
        oneTemporary := List.countP_le_length
        activeOpen := by simp [RequestTabState.ids, reservedId]
        activeEmpty := by simp
        historyNodup := List.nodup_nil
        historyOpen := by simp
        closedNodup := by
          apply lastClosed_append_nodup wellFormed.closedNodup (wellFormed.idsNodup.filter _)
          intro id idMem
          exact decide_eq_false fun kept => kept.2 idMem
        closedBounded := lastClosed_length _
        closedShut := by
          intro id idClosed idOpen
          have idMem := (lastClosed_sublist _).subset idClosed
          have sameId : id = requestId := by
            simpa [RequestTabState.ids, reservedId] using idOpen
          simp [sameId] at idMem
        dashboardEmpty := by simp }

theorem reopenClosedDocumentTab_wellFormed (wellFormed : TabsWellFormed state)
    (validDocuments : List (String ⊕ DocumentTabReference)) :
    TabsWellFormed (reopenClosedDocumentTab state validDocuments) := by
  unfold reopenClosedDocumentTab
  dsimp only
  split
  case h_1 => exact wellFormed
  case h_2 requestId found =>
    split
    case isTrue => exact wellFormed
    case isFalse =>
      have notOpen : requestId ∉ state.ids := by
        have usable := List.find?_some found
        rw [decide_eq_true_eq] at usable
        exact usable.2
      apply (openDocumentTab_wellFormed_iff _ _ _ _).mpr
      · exact .inr (.inl notOpen)
      · exact {
          idsNodup := wellFormed.idsNodup
          bounded := wellFormed.bounded
          oneTemporary := wellFormed.oneTemporary
          activeOpen := wellFormed.activeOpen
          activeEmpty := wellFormed.activeEmpty
          historyNodup := wellFormed.historyNodup
          historyOpen := wellFormed.historyOpen
          closedNodup := wellFormed.closedNodup.filter _
          closedBounded := (List.length_filter_le _ _).trans wellFormed.closedBounded
          closedShut := fun id idMem => wellFormed.closedShut id (List.mem_of_mem_filter idMem)
          dashboardEmpty := wellFormed.dashboardEmpty }

end Close

/-! ## Reconciling with the documents there are -/

theorem uniqueIds_nodup (ids : List String) (limit : ℕ) : (uniqueIds ids limit).Nodup :=
  (nodup_eraseDups _).sublist (List.take_sublist _ _)

theorem uniqueIds_length (ids : List String) (limit : ℕ) : (uniqueIds ids limit).length ≤ limit :=
  List.length_take_le _ _

section Reconcile

variable {validType : String → Option DocumentTabType}

theorem reconciledTabs_nodup (seen : List String) (temporarySeen : Bool)
    (tabs : List RequestDocumentTab) :
    ((reconciledTabs validType seen temporarySeen tabs).map RequestDocumentTab.requestId).Nodup ∧
      ∀ tab ∈ reconciledTabs validType seen temporarySeen tabs, tab.requestId ∉ seen := by
  induction tabs generalizing seen temporarySeen with
  | nil => simp [reconciledTabs]
  | cons tab tabs ih =>
      unfold reconciledTabs
      split
      case isTrue => exact ih seen temporarySeen
      case isFalse kept =>
        rw [not_or] at kept
        rcases ih (tab.requestId :: seen) (temporarySeen || tab.temporary) with ⟨nodup, unseen⟩
        constructor
        · rw [List.map_cons, List.nodup_cons]
          refine ⟨?_, nodup⟩
          intro again
          rcases List.mem_map.mp again with ⟨other, otherMem, sameId⟩
          exact unseen other otherMem (by simp [sameId])
        · intro other otherMem
          rcases List.mem_cons.mp otherMem with rfl | inRest
          · exact kept.2
          · exact fun wasSeen => unseen other inRest (List.mem_cons_of_mem _ wasSeen)

theorem reconciledTabs_temporary (seen : List String) (temporarySeen : Bool)
    (tabs : List RequestDocumentTab) :
    (reconciledTabs validType seen temporarySeen tabs).countP RequestDocumentTab.temporary ≤
      if temporarySeen then 0 else 1 := by
  induction tabs generalizing seen temporarySeen with
  | nil => simp [reconciledTabs]
  | cons tab tabs ih =>
      unfold reconciledTabs
      split
      case isTrue => exact ih seen temporarySeen
      case isFalse =>
        have rest := ih (tab.requestId :: seen) (temporarySeen || tab.temporary)
        rw [List.countP_cons]
        cases temporarySeen <;> cases temporary : tab.temporary <;> simp_all

theorem reconciled_tabs_wellFormed (tabs : List RequestDocumentTab) (fallback : RequestDocumentTab)
    (shown : Prop) [Decidable shown] :
    let kept := (reconciledTabs validType [] false tabs).take maxOpenTabs
    let reconciled := if shown then [fallback] else kept
    (reconciled.map RequestDocumentTab.requestId).Nodup ∧ reconciled.length ≤ 100 ∧
      reconciled.countP RequestDocumentTab.temporary ≤ 1 := by
  intro kept reconciled
  by_cases onlyFallback : shown
  · have reconciledEq : reconciled = [fallback] := if_pos onlyFallback
    rw [reconciledEq]
    exact ⟨by simp, by simp, List.countP_le_length⟩
  · have reconciledEq : reconciled = kept := if_neg onlyFallback
    have keptSublist : kept.Sublist (reconciledTabs validType [] false tabs) :=
      List.take_sublist _ _
    rw [reconciledEq]
    refine ⟨?_, List.length_take_le _ _, ?_⟩
    · exact (reconciledTabs_nodup [] false tabs).1.sublist (keptSublist.map _)
    · exact keptSublist.countP_le.trans (reconciledTabs_temporary [] false tabs)

theorem selected_mem (tabIds : List String) (active fallback : String) :
    let selected := if active ∈ tabIds then active
      else if fallback ∈ tabIds then fallback else tabIds.head?.getD ""
    (tabIds ≠ [] → selected ∈ tabIds) ∧ (tabIds = [] → selected = "") := by
  cases tabIds with
  | nil => simp
  | cons first rest =>
      refine ⟨fun _ => ?_, by simp⟩
      split
      · assumption
      · split
        · assumption
        · simp

theorem reconcileRequestTabState_wellFormed (state : RequestTabState)
    (validDocuments : List (String ⊕ DocumentTabReference))
    (fallbackDocument : String ⊕ DocumentTabReference) :
    TabsWellFormed (reconcileRequestTabState state validDocuments fallbackDocument) where
  idsNodup := (reconciled_tabs_wellFormed _ _ _).1
  bounded := (reconciled_tabs_wellFormed _ _ _).2.1
  oneTemporary := (reconciled_tabs_wellFormed _ _ _).2.2
  activeOpen someTabs := (selected_mem _ _ _).1 (mt List.map_eq_nil_iff.mp someTabs)
  activeEmpty noTabs := (selected_mem _ _ _).2 (List.map_eq_nil_iff.mpr noTabs)
  historyNodup := (uniqueIds_nodup _ _).filter _
  historyOpen id idMem := of_decide_eq_true (List.mem_filter.mp idMem).2
  closedNodup := (uniqueIds_nodup _ _).filter _
  closedBounded := (List.length_filter_le _ _).trans (uniqueIds_length _ _)
  closedShut id idMem := (of_decide_eq_true (List.mem_filter.mp idMem).2).2
  dashboardEmpty shown := by
    rw [reconcileRequestTabState] at shown ⊢
    exact List.isEmpty_iff.mp (Bool.and_eq_true_iff.mp shown).2

end Reconcile

/-! ## Runs -/

/-- The steps that keep the tabs well formed: all but opening again, with another type, a
document that is open in a tab that stays. -/
def TabActionAllowed (state : RequestTabState) : TabAction → Prop
  | .openTab requestId type permanent => OpenAllowed state requestId type permanent
  | _ => True

theorem runTabAction_wellFormed_iff (state : RequestTabState) (action : TabAction)
    (wellFormed : TabsWellFormed state) :
    TabsWellFormed (runTabAction state action) ↔ TabActionAllowed state action := by
  cases action with
  | openTab requestId type permanent => exact openDocumentTab_wellFormed_iff wellFormed _ _ _
  | promote => exact iff_of_true (promoteRequestTab_wellFormed wellFormed) trivial
  | close requestId => exact iff_of_true (closeRequestTab_wellFormed wellFormed _) trivial
  | closeAll => exact iff_of_true (closeAllRequestTabs_wellFormed wellFormed) trivial
  | closeOthers => exact iff_of_true (closeOtherRequestTabs_wellFormed wellFormed _) trivial
  | reopen => exact iff_of_true (reopenClosedDocumentTab_wellFormed wellFormed _) trivial
  | cycle => exact iff_of_true (cycleRequestTab_wellFormed wellFormed _) trivial
  | move => exact iff_of_true (moveRequestTab_wellFormed wellFormed _ _) trivial
  | reconcile => exact iff_of_true (reconcileRequestTabState_wellFormed _ _ _) trivial

/-- From the empty state, the tabs stay well formed exactly along the sequences of operations
that do not open a document twice under two types. -/
theorem tabsWellFormed_iff_allowed (actions : List TabAction) :
    EveryState runTabAction emptyRequestTabState actions TabsWellFormed ↔
      EveryStep runTabAction emptyRequestTabState actions TabActionAllowed :=
  everyState_iff_everyStep actions emptyRequestTabState_wellFormed runTabAction_wellFormed_iff

/-- A folder with the id of an open request gets a second tab with that id. -/
theorem document_opened_twice :
    ¬TabsWellFormed ([TabAction.openTab "x" .request true, .openTab "x" .folder true].foldl
      runTabAction emptyRequestTabState) := by
  intro wellFormed
  have distinct := wellFormed.idsNodup
  revert distinct
  decide

end Brunomnia.Documents
