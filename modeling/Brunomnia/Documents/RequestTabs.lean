import Brunomnia.Strings

/-!
# Document tabs

The open documents of a project as a state of tabs, the active one, the tabs that
were active before, the ids that were closed, and whether the dashboard shows. This
file models the operations on it; each of them rewrites the lists by hand.
-/

namespace Brunomnia.Documents

inductive DocumentTabType where
  | request
  | folder
  | runner
  | environment
  | document
  | mockServer
  | mockRoute
  | collection
  | testSuite
  deriving DecidableEq

structure DocumentTabReference where
  id : String
  type : DocumentTabType
  deriving DecidableEq

structure RequestDocumentTab where
  requestId : String
  type : DocumentTabType
  temporary : Bool
  deriving DecidableEq

structure RequestTabState where
  tabs : List RequestDocumentTab
  activeRequestId : String
  history : List String
  closed : List String
  dashboard : Bool
  deriving DecidableEq

inductive RequestTabPlacement where
  | before
  | after
  deriving DecidableEq

inductive CycleDirection where
  | next
  | previous
  deriving DecidableEq

def maxOpenTabs : ℕ := 100

def maxTabHistory : ℕ := 100

def maxClosedTabs : ℕ := 50

def emptyRequestTabState : RequestTabState where
  tabs := []
  activeRequestId := ""
  history := []
  closed := []
  dashboard := false

def RequestTabState.ids (state : RequestTabState) : List String :=
  state.tabs.map RequestDocumentTab.requestId

/-- The first occurrences of usable ids, up to a limit. -/
def uniqueIds (ids : List String) (limit : ℕ) : List String :=
  ((ids.filter fun id => decide (id ≠ "" ∧ utf16Length id ≤ 500)).eraseDups).take limit

/-- A document that is given by its id alone is a request. -/
def documentReference : String ⊕ DocumentTabReference → DocumentTabReference
  | .inl id => { id, type := .request }
  | .inr reference => reference

/-- The type a `Map` of references keeps for an id: the last one set. -/
def validById (validDocuments : List (String ⊕ DocumentTabReference)) (id : String) :
    Option DocumentTabType :=
  ((validDocuments.map documentReference).reverse.find? fun reference =>
    reference.id = id).map DocumentTabReference.type

/-- `ids.slice(-maxClosedTabs)`. -/
def lastClosed (ids : List String) : List String :=
  ids.drop (ids.length - maxClosedTabs)

def activate (state : RequestTabState) (requestId : String) : RequestTabState :=
  if requestId ∉ state.ids then state
  else if state.activeRequestId = requestId then
    { state with
      closed := state.closed.filter fun id => id ≠ requestId
      dashboard := false }
  else
    let history :=
      if state.activeRequestId ≠ "" ∧ state.activeRequestId ∈ state.ids then
        state.activeRequestId ::
          state.history.filter fun id => decide (id ≠ state.activeRequestId ∧ id ≠ requestId)
      else state.history.filter fun id => id ≠ requestId
    { state with
      activeRequestId := requestId
      history := history.take maxTabHistory
      closed := state.closed.filter fun id => id ≠ requestId
      dashboard := false }

/-- The tabs of valid documents, each id once and the first temporary one only. -/
def reconciledTabs (validType : String → Option DocumentTabType) :
    List String → Bool → List RequestDocumentTab → List RequestDocumentTab
  | _, _, [] => []
  | seen, temporarySeen, tab :: tabs =>
      if validType tab.requestId ≠ some tab.type ∨ tab.requestId ∈ seen then
        reconciledTabs validType seen temporarySeen tabs
      else
        { tab with temporary := tab.temporary && !temporarySeen } ::
          reconciledTabs validType (tab.requestId :: seen) (temporarySeen || tab.temporary) tabs

def reconcileRequestTabState (state : RequestTabState)
    (validDocuments : List (String ⊕ DocumentTabReference))
    (fallbackDocument : String ⊕ DocumentTabReference) : RequestTabState :=
  let validType := validById validDocuments
  let fallback := documentReference fallbackDocument
  let kept := (reconciledTabs validType [] false state.tabs).take maxOpenTabs
  let dashboard := state.dashboard && kept.isEmpty
  let tabs :=
    if kept = [] ∧ dashboard = false ∧ validType fallback.id = some fallback.type then
      [{ requestId := fallback.id, type := fallback.type, temporary := true }]
    else kept
  let tabIds := tabs.map RequestDocumentTab.requestId
  let activeRequestId :=
    if state.activeRequestId ∈ tabIds then state.activeRequestId
    else if fallback.id ∈ tabIds then fallback.id
    else tabIds.head?.getD ""
  { tabs, activeRequestId
    history := (uniqueIds state.history maxTabHistory).filter fun id =>
      decide (id ∈ tabIds ∧ id ≠ activeRequestId)
    closed := (uniqueIds state.closed maxClosedTabs).filter fun id =>
      decide ((validType id).isSome ∧ id ∉ tabIds)
    dashboard := dashboard && tabs.isEmpty }

/-- Clear the temporary mark of the tabs with an id. -/
def promoteTabs (tabs : List RequestDocumentTab) (requestId : String) : List RequestDocumentTab :=
  tabs.map fun tab => if tab.requestId = requestId then { tab with temporary := false } else tab

def openDocumentTab (state : RequestTabState) (requestId : String) (type : DocumentTabType)
    (permanent : Bool) : RequestTabState :=
  if requestId = "" then state
  else if ∃ tab ∈ state.tabs, tab.requestId = requestId ∧ tab.type = type then
    activate
      { state with tabs := if permanent then promoteTabs state.tabs requestId else state.tabs }
      requestId
  else
    match if permanent then none else state.tabs.findIdx? RequestDocumentTab.temporary with
    | some temporaryIndex =>
        let replacedId := (state.tabs[temporaryIndex]?.map RequestDocumentTab.requestId).getD ""
        activate
          { state with
            tabs := state.tabs.set temporaryIndex { requestId, type, temporary := true }
            history := state.history.filter fun id => id ≠ replacedId }
          requestId
    | none =>
        if state.tabs.length < maxOpenTabs then
          activate
            { state with tabs := state.tabs ++ [{ requestId, type, temporary := !permanent }] }
            requestId
        else state

def promoteRequestTab (state : RequestTabState) (requestId : String) : RequestTabState :=
  if ∃ tab ∈ state.tabs, tab.requestId = requestId ∧ tab.temporary then
    { state with tabs := promoteTabs state.tabs requestId }
  else state

def closeRequestTab (state : RequestTabState) (requestId : String) : RequestTabState :=
  match state.tabs.findIdx? fun tab => tab.requestId = requestId with
  | none => state
  | some index =>
      let closed := lastClosed ((state.closed.filter fun id => id ≠ requestId) ++ [requestId])
      if state.tabs.length = 1 then
        { tabs := [], activeRequestId := "", history := [], closed, dashboard := true }
      else
        let tabs := state.tabs.filter fun tab => tab.requestId ≠ requestId
        let tabIds := tabs.map RequestDocumentTab.requestId
        let history := state.history.filter fun id => decide (id ≠ requestId ∧ id ∈ tabIds)
        let activeRequestId :=
          if state.activeRequestId = requestId then
            (history.head? <|> tabIds[index - 1]? <|> tabIds.head?)
          else some state.activeRequestId
        match activeRequestId with
        | none => state -- reading the id of a missing tab throws
        | some activeRequestId =>
            { tabs, activeRequestId
              history := history.filter fun id => id ≠ activeRequestId
              closed, dashboard := false }

def closeAllRequestTabs (state : RequestTabState) : RequestTabState :=
  if state.tabs = [] then state
  else
    { tabs := []
      activeRequestId := ""
      history := []
      closed := lastClosed ((state.closed.filter fun id => decide (id ∉ state.ids)) ++ state.ids)
      dashboard := true }

def closeOtherRequestTabs (state : RequestTabState) (requestId : String) : RequestTabState :=
  match state.tabs.find? fun tab => tab.requestId = requestId with
  | none => state
  | some reserved =>
      if state.tabs.length ≤ 1 then state
      else
        let closing := state.ids.filter fun id => id ≠ requestId
        { tabs := [reserved]
          activeRequestId := requestId
          history := []
          closed := lastClosed ((state.closed.filter fun id =>
            decide (id ≠ requestId ∧ id ∉ closing)) ++ closing)
          dashboard := false }

def reopenClosedDocumentTab (state : RequestTabState)
    (validDocuments : List (String ⊕ DocumentTabReference)) : RequestTabState :=
  let validType := validById validDocuments
  match state.closed.reverse.find? fun id => decide ((validType id).isSome ∧ id ∉ state.ids) with
  | none => state
  | some requestId =>
      if requestId = "" then state
      else
        openDocumentTab { state with closed := state.closed.filter fun id => id ≠ requestId }
          requestId ((validType requestId).getD .request) true

def cycleRequestTab (state : RequestTabState) (direction : CycleDirection) : RequestTabState :=
  if state.tabs.length < 2 then state
  else
    let index := (state.ids.findIdx? fun id => id = state.activeRequestId).getD 0
    let target :=
      match direction with
      | .next => (index + 1 + state.tabs.length) % state.tabs.length
      | .previous => (index + state.tabs.length - 1) % state.tabs.length
    match state.ids[target]? with
    | some requestId => activate state requestId
    | none => state

def moveRequestTab (state : RequestTabState) (requestId targetRequestId : String)
    (placement : RequestTabPlacement) : RequestTabState :=
  match state.tabs.find? fun candidate => candidate.requestId = requestId with
  | none => state
  | some tab =>
      if requestId = targetRequestId ∨ targetRequestId ∉ state.ids then state
      else
        let tabs := state.tabs.filter fun candidate => candidate.requestId ≠ requestId
        let targetIndex := (tabs.map RequestDocumentTab.requestId).idxOf targetRequestId
        let index := targetIndex + match placement with | .after => 1 | .before => 0
        { state with tabs := tabs.insertIdx index tab }

/-! ## Steps -/

inductive TabAction where
  | openTab (requestId : String) (type : DocumentTabType) (permanent : Bool)
  | promote (requestId : String)
  | close (requestId : String)
  | closeAll
  | closeOthers (requestId : String)
  | reopen (validDocuments : List (String ⊕ DocumentTabReference))
  | cycle (direction : CycleDirection)
  | move (requestId targetRequestId : String) (placement : RequestTabPlacement)
  | reconcile (validDocuments : List (String ⊕ DocumentTabReference))
      (fallbackDocument : String ⊕ DocumentTabReference)

def runTabAction (state : RequestTabState) : TabAction → RequestTabState
  | .openTab requestId type permanent => openDocumentTab state requestId type permanent
  | .promote requestId => promoteRequestTab state requestId
  | .close requestId => closeRequestTab state requestId
  | .closeAll => closeAllRequestTabs state
  | .closeOthers requestId => closeOtherRequestTabs state requestId
  | .reopen validDocuments => reopenClosedDocumentTab state validDocuments
  | .cycle direction => cycleRequestTab state direction
  | .move requestId targetRequestId placement =>
      moveRequestTab state requestId targetRequestId placement
  | .reconcile validDocuments fallbackDocument =>
      reconcileRequestTabState state validDocuments fallbackDocument

end Brunomnia.Documents
