import Brunomnia.Documents.RequestTabRuns

/-!
# Reopening closed documents

The ids of closed tabs are a stack of limited height, from which documents are reopened. So
documents that were closed one after the other come back in the opposite order, and what was
open is open again, up to the order of the tabs and to which of them was temporary.
-/

namespace Brunomnia.Documents

open Library

def RequestTabState.documents (state : RequestTabState) : List DocumentTabReference :=
  state.tabs.map fun tab => ⟨tab.requestId, tab.type⟩

variable {state : RequestTabState} {requestId : String}

theorem documents_ids (state : RequestTabState) :
    state.documents.map DocumentTabReference.id = state.ids := by
  rw [RequestTabState.documents, RequestTabState.ids, List.map_map]
  rfl

/-! ## Closing -/

/-- The stack forgets the same ids, however they are pushed. -/
theorem lastClosed_lastClosed_append (ids later : List String) :
    lastClosed (lastClosed ids ++ later) = lastClosed (ids ++ later) := by
  have within : ids.length - maxClosedTabs ≤ ids.length := Nat.sub_le _ _
  unfold lastClosed
  rw [← List.drop_append_of_le_length within, List.drop_drop, List.length_drop]
  congr 1
  rw [List.length_append]
  omega

/-- Closing an open tab takes it out and pushes its id. -/
theorem closeRequestTab_spec (wellFormed : TabsWellFormed state) (isOpen : requestId ∈ state.ids) :
    (closeRequestTab state requestId).closed = lastClosed (state.closed ++ [requestId]) ∧
      ∃ document : DocumentTabReference, document.id = requestId ∧
        state.documents.Perm (document :: (closeRequestTab state requestId).documents) := by
  have notClosed : (state.closed.filter fun id => id ≠ requestId) = state.closed := by
    apply List.filter_eq_self.mpr
    intro id idMem
    have different : id ≠ requestId := fun same =>
      wellFormed.closedShut id idMem (same ▸ isOpen)
    simpa using different
  rcases List.mem_map.mp isOpen with ⟨tab, tabMem, rfl⟩
  have divided : state.tabs.Perm
      (tab :: state.tabs.filter fun other => other.requestId ≠ tab.requestId) :=
    filter_ne_perm RequestDocumentTab.requestId wellFormed.idsNodup tabMem
  have found : ∃ index, state.tabs.findIdx? (fun other => other.requestId = tab.requestId) =
      some index := by
    apply Option.isSome_iff_exists.mp
    rw [List.findIdx?_isSome, List.any_eq_true]
    exact ⟨tab, tabMem, by simp⟩
  rcases found with ⟨index, foundEq⟩
  unfold closeRequestTab
  rw [foundEq]
  dsimp only
  rw [notClosed]
  split
  case isTrue single =>
    refine ⟨rfl, ⟨tab.requestId, tab.type⟩, rfl, ?_⟩
    have only := divided.length_eq
    rw [single, List.length_cons] at only
    have noneLeft := List.length_eq_zero_iff.mp (Nat.succ.inj only).symm
    rw [noneLeft] at divided
    exact divided.map _
  case isFalse several =>
    split
    case h_1 noNext =>
      -- another tab is open, so that there is one to show next
      exfalso
      have noneLeft : (state.tabs.filter fun other => other.requestId ≠ tab.requestId) = [] := by
        split at noNext
        case isTrue =>
          have alike : ∀ other ∈ state.tabs, other.requestId = tab.requestId := by
            simp at noNext
            exact noNext.2.2
          apply List.filter_eq_nil_iff.mpr
          intro other otherMem
          simp [alike other otherMem]
        case isFalse => cases noNext
      rw [noneLeft] at divided
      exact several divided.length_eq
    case h_2 next _ =>
      exact ⟨rfl, ⟨tab.requestId, tab.type⟩, rfl, divided.map _⟩

/-- The documents of closed tabs, and what closing them one after the other leaves. -/
structure ClosesTabs (state : RequestTabState) (ids : List String)
    (documents : List DocumentTabReference) (after : RequestTabState) : Prop where
  wellFormed : TabsWellFormed after
  documentIds : documents.map DocumentTabReference.id = ids
  divided : state.documents.Perm (documents ++ after.documents)
  closed : after.closed = lastClosed (state.closed ++ ids)

theorem closes_foldl {ids : List String} (wellFormed : TabsWellFormed state) (nodup : ids.Nodup)
    (areOpen : ids ⊆ state.ids) :
    ∃ documents, ClosesTabs state ids documents (ids.foldl closeRequestTab state) := by
  induction ids generalizing state with
  | nil =>
      refine ⟨[], wellFormed, rfl, List.Perm.refl _, ?_⟩
      have few : state.closed.length - maxClosedTabs = 0 :=
        Nat.sub_eq_zero_of_le wellFormed.closedBounded
      rw [List.append_nil, lastClosed, few]
      rfl
  | cons id ids ih =>
      rw [List.nodup_cons] at nodup
      rcases closeRequestTab_spec wellFormed (areOpen List.mem_cons_self) with
        ⟨closed, document, isId, divided⟩
      have stillOpen : ids ⊆ (closeRequestTab state id).ids := by
        intro other otherMem
        have wasOpen := areOpen (List.mem_cons_of_mem _ otherMem)
        rw [← documents_ids, (divided.map _).mem_iff, List.map_cons, documents_ids, isId] at wasOpen
        rcases List.mem_cons.mp wasOpen with rfl | isOpen
        · exact absurd otherMem nodup.1
        · exact isOpen
      rcases ih (closeRequestTab_wellFormed wellFormed id) nodup.2 stillOpen with
        ⟨documents, closes⟩
      refine ⟨document :: documents, closes.wellFormed, ?_, ?_, ?_⟩
      · rw [List.map_cons, isId, closes.documentIds]
      · exact divided.trans (closes.divided.cons document)
      · rw [List.foldl_cons, closes.closed, closed, lastClosed_lastClosed_append,
          List.append_assoc, List.singleton_append]

/-! ## Reopening -/

section Reopen

variable {validDocuments : List (String ⊕ DocumentTabReference)} {earlier : List String}

/-- The document that is reopened for an id. -/
def documentFor (validDocuments : List (String ⊕ DocumentTabReference)) (id : String) :
    DocumentTabReference :=
  ⟨id, (validById validDocuments id).getD .request⟩

/-- A state with one more tab, before that is activated. -/
def RequestTabState.withTab (state : RequestTabState) (document : DocumentTabReference)
    (closed : List String) : RequestTabState :=
  { state with
    tabs := state.tabs ++ [{ requestId := document.id, type := document.type, temporary := false }]
    closed }

theorem activate_spec (isOpen : requestId ∈ state.ids) :
    (activate state requestId).closed = state.closed.filter (fun id => id ≠ requestId) ∧
      (activate state requestId).activeRequestId = requestId := by
  unfold activate
  rw [if_neg (not_not_intro isOpen)]
  split
  case isTrue isActive => exact ⟨rfl, isActive⟩
  case isFalse => exact ⟨rfl, rfl⟩

/-- The id on top of the stack is taken from it, and gets a tab after the others. -/
theorem reopenClosedDocumentTab_spec (wellFormed : TabsWellFormed state)
    (top : state.closed = earlier ++ [requestId]) (named : requestId ≠ "")
    (valid : (validById validDocuments requestId).isSome) (room : state.tabs.length < maxOpenTabs) :
    (reopenClosedDocumentTab state validDocuments).documents =
        state.documents ++ [documentFor validDocuments requestId] ∧
      (reopenClosedDocumentTab state validDocuments).closed = earlier ∧
      (reopenClosedDocumentTab state validDocuments).activeRequestId = requestId := by
  have notOpen : requestId ∉ state.ids :=
    wellFormed.closedShut requestId (top ▸ List.mem_append_right _ List.mem_cons_self)
  have popped : (state.closed.filter fun id => id ≠ requestId) = earlier := by
    have nodup := wellFormed.closedNodup
    rw [top, List.nodup_append] at nodup
    rw [top, List.filter_append, List.filter_eq_self.mpr]
    · simp
    · intro id idMem
      simpa using nodup.2.2 id idMem requestId List.mem_cons_self
  have kept : (earlier.filter fun id => id ≠ requestId) = earlier := by
    rw [← popped, List.filter_filter]
    simp
  have found : (state.closed.reverse.find? fun id =>
      decide ((validById validDocuments id).isSome ∧ id ∉ state.ids)) = some requestId := by
    rw [top, List.reverse_append, List.reverse_singleton, List.singleton_append,
      List.find?_cons_of_pos]
    exact decide_eq_true ⟨valid, notOpen⟩
  have notShown : ¬ ∃ tab ∈ state.tabs, tab.requestId = requestId ∧
      tab.type = (validById validDocuments requestId).getD .request := by
    rintro ⟨tab, tabMem, rfl, _⟩
    exact notOpen (List.mem_map_of_mem tabMem)
  have opened : reopenClosedDocumentTab state validDocuments =
      activate (state.withTab (documentFor validDocuments requestId) earlier) requestId := by
    unfold reopenClosedDocumentTab
    dsimp only
    rw [found]
    dsimp only
    rw [if_neg named, popped, openDocumentTab, if_neg named, if_neg notShown]
    simp [room, RequestTabState.withTab, documentFor]
  have isOpen : requestId ∈ (state.withTab (documentFor validDocuments requestId) earlier).ids := by
    simp [RequestTabState.ids, RequestTabState.withTab, documentFor]
  rcases activate_spec isOpen with ⟨closed, active⟩
  rw [opened]
  refine ⟨?_, closed.trans kept, active⟩
  rw [RequestTabState.documents, activate_tabs, RequestTabState.withTab, List.map_append]
  rfl

def reopenTimes (validDocuments : List (String ⊕ DocumentTabReference)) (times : ℕ)
    (state : RequestTabState) : RequestTabState :=
  (fun state => reopenClosedDocumentTab state validDocuments)^[times] state

theorem reopenTimes_succ (times : ℕ) (state : RequestTabState) :
    reopenTimes validDocuments (times + 1) state =
      reopenTimes validDocuments times (reopenClosedDocumentTab state validDocuments) :=
  Function.iterate_succ_apply _ _ _

theorem reopenTimes_spec {ids : List String} (wellFormed : TabsWellFormed state)
    (top : state.closed = earlier ++ ids) (named : "" ∉ ids)
    (valid : ∀ id ∈ ids, (validById validDocuments id).isSome)
    (room : state.tabs.length + ids.length ≤ maxOpenTabs) :
    (reopenTimes validDocuments ids.length state).documents =
        state.documents ++ ids.reverse.map (documentFor validDocuments) ∧
      (reopenTimes validDocuments ids.length state).closed = earlier ∧
      ∀ first ∈ ids.head?,
        (reopenTimes validDocuments ids.length state).activeRequestId = first := by
  induction ids using List.reverseRecOn generalizing state with
  | nil => simpa [reopenTimes] using top
  | append_singleton ids id ih =>
      rw [List.length_append, List.length_singleton] at room ⊢
      rw [← List.append_assoc] at top
      rcases reopenClosedDocumentTab_spec wellFormed top
        (fun empty => named (List.mem_append_right _ (empty ▸ List.mem_cons_self)))
        (valid id (List.mem_append_right _ List.mem_cons_self)) (by omega) with
        ⟨documents, closed, active⟩
      have counted := congrArg List.length documents
      simp only [RequestTabState.documents, List.length_append, List.length_map,
        List.length_singleton] at counted
      rcases ih (reopenClosedDocumentTab_wellFormed wellFormed validDocuments) closed
        (fun empty => named (List.mem_append_left _ empty))
        (fun other otherMem => valid other (List.mem_append_left _ otherMem)) (by omega) with
        ⟨laterDocuments, laterClosed, laterActive⟩
      rw [reopenTimes_succ]
      refine ⟨?_, laterClosed, ?_⟩
      · rw [laterDocuments, documents, List.append_assoc, List.reverse_append]
        rfl
      · intro first isFirst
        cases ids with
        | nil =>
            obtain rfl : id = first := by simpa using isFirst
            exact active
        | cons other others => exact laterActive first (by simpa using isFirst)

/-- Documents that are closed one after the other, no more than the stack holds, are open again
after as many times of reopening, with the one that was closed first shown. -/
theorem reopening_undoes_closing {ids : List String} (wellFormed : TabsWellFormed state)
    (nodup : ids.Nodup) (areOpen : ids ⊆ state.ids) (few : ids.length ≤ maxClosedTabs)
    (named : "" ∉ ids)
    (valid : ∀ tab ∈ state.tabs, validById validDocuments tab.requestId = some tab.type) :
    (reopenTimes validDocuments ids.length
        (ids.foldl closeRequestTab state)).documents.Perm state.documents ∧
      (reopenTimes validDocuments ids.length
        (ids.foldl closeRequestTab state)).closed <:+ state.closed ∧
      ∀ first ∈ ids.head?, (reopenTimes validDocuments ids.length
        (ids.foldl closeRequestTab state)).activeRequestId = first := by
  rcases closes_foldl wellFormed nodup areOpen with ⟨documents, closes⟩
  have counted := closes.divided.length_eq
  have sameLength := congrArg List.length closes.documentIds
  simp only [RequestTabState.documents, List.length_append, List.length_map] at counted sameLength
  have within : state.closed.length + ids.length - maxClosedTabs ≤ state.closed.length := by omega
  have top : (ids.foldl closeRequestTab state).closed =
      state.closed.drop (state.closed.length + ids.length - maxClosedTabs) ++ ids := by
    rw [closes.closed, lastClosed, List.length_append, List.drop_append_of_le_length within]
  have validDocument : ∀ document ∈ documents,
      validById validDocuments document.id = some document.type := by
    intro document documentMem
    have wasOpen := closes.divided.mem_iff.mpr (List.mem_append_left _ documentMem)
    rcases List.mem_map.mp wasOpen with ⟨tab, tabMem, rfl⟩
    exact valid tab tabMem
  have documentsEq : documents = ids.map (documentFor validDocuments) := by
    rw [← closes.documentIds, List.map_map]
    conv_lhs => rw [← List.map_id documents]
    apply List.map_congr_left
    intro document documentMem
    simp [documentFor, validDocument document documentMem]
  have validIds : ∀ id ∈ ids, (validById validDocuments id).isSome := by
    intro id idMem
    rw [← closes.documentIds] at idMem
    rcases List.mem_map.mp idMem with ⟨document, documentMem, rfl⟩
    rw [validDocument document documentMem]
    rfl
  have bounded := wellFormed.bounded
  rcases reopenTimes_spec closes.wellFormed top named validIds
    (by unfold maxOpenTabs; omega) with ⟨reopened, closed, active⟩
  refine ⟨?_, closed ▸ List.drop_suffix _ _, active⟩
  calc _
    _ = (ids.foldl closeRequestTab state).documents ++
          ids.reverse.map (documentFor validDocuments) := reopened
    _ = (ids.foldl closeRequestTab state).documents ++ documents.reverse := by
      rw [documentsEq, List.map_reverse]
    List.Perm _ (documents ++ (ids.foldl closeRequestTab state).documents) :=
      (List.perm_append_comm).trans ((List.reverse_perm _).append_right _)
    List.Perm _ state.documents := closes.divided.symm

/-- A request, a folder that is shown, and another request. -/
def threeTabs : RequestTabState where
  tabs := [⟨"a", .request, false⟩, ⟨"b", .folder, true⟩, ⟨"c", .request, false⟩]
  activeRequestId := "b"
  history := ["a"]
  closed := ["z"]
  dashboard := false

theorem threeTabs_reopened :
    (reopenTimes [.inl "a", .inr ⟨"b", .folder⟩, .inl "c"] ["a", "b"].length
        (["a", "b"].foldl closeRequestTab threeTabs)).documents.Perm threeTabs.documents ∧
      (reopenTimes [.inl "a", .inr ⟨"b", .folder⟩, .inl "c"] ["a", "b"].length
        (["a", "b"].foldl closeRequestTab threeTabs)).closed <:+ threeTabs.closed ∧
      ∀ first ∈ ["a", "b"].head?,
        (reopenTimes [.inl "a", .inr ⟨"b", .folder⟩, .inl "c"] ["a", "b"].length
          (["a", "b"].foldl closeRequestTab threeTabs)).activeRequestId = first := by
  apply reopening_undoes_closing
  · constructor <;> decide
  · decide
  · decide
  · decide
  · decide
  · decide

end Reopen

end Brunomnia.Documents
