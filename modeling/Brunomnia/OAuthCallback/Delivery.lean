import Brunomnia.Library.Lists
import Brunomnia.OAuthCallback.Requests

/-!
# Which callback is delivered

The listener should return the parameters of the first connection that is a genuine callback, and
no other connection should make it return. At every moment it has done so exactly if no connection
that it took was a target that does not parse, a callback whose page could not be written, or one
that has the state but no response.
-/

namespace Brunomnia.OAuthCallback

open Codegen (Text)
open Library

variable {parser : UrlParser}

/-! ## What is expected -/

/-- One of the parameters of a response is there. -/
def Responds (parameters : Parameters) : Prop :=
  ∃ name ∈ ["code", "access_token", "id_token", "error"], ∃ value,
    parameters.read name.toList = some value

/-- A request for a target with the path of the callback, and its parameters. -/
structure OnPath (parser : UrlParser) (prepared : PreparedCallback) (connection : Connection)
    (parameters : Parameters) : Prop where
  callback : ∃ target url, SendsGet connection target ∧
    parser.parse ("http://localhost".toList ++ target) = some url ∧
    url.path = prepared.callbackPath ∧ HoldsPairs parameters (url.pairs parser)

/-- A request for the path with the state and a response. -/
structure Genuine (parser : UrlParser) (prepared : PreparedCallback) (connection : Connection)
    (parameters : Parameters) : Prop extends OnPath parser prepared connection parameters where
  ownState : parameters.read "state".toList = some prepared.expectedState
  responds : Responds parameters

/-- The outcome that is due at an event. -/
inductive Outcome (parser : UrlParser) (prepared : PreparedCallback) :
    Event → Except String Parameters → Prop
  | delivered {connection : Connection} {parameters : Parameters}
      (genuine : Genuine parser prepared connection parameters) :
      Outcome parser prepared (.connection connection) (.ok parameters)
  | cancelled :
      Outcome parser prepared .cancelled (.error "OAuth authorization was canceled.")
  | deadline :
      Outcome parser prepared .deadline
        (.error "OAuth authorization timed out after five minutes.")
  | acceptFailed (error : String) :
      Outcome parser prepared (.acceptFailed error) (.error error)

/-- After every event the listener waits if no outcome was due yet, and else has returned what was
due first: the parameters of a genuine callback, or the error that ends the wait. -/
def DeliversGenuine (parser : UrlParser) (prepared : PreparedCallback) (events : List Event) :
    Prop :=
  ∀ n, (waitForCallback parser prepared (events.take n) = none ↔
      ∀ event ∈ events.take n, ¬ Decides (Outcome parser prepared) event) ∧
    ∀ result, waitForCallback parser prepared (events.take n) = some result →
      ∃ before event after, events.take n = before ++ event :: after ∧
        (∀ earlier ∈ before, ¬ Decides (Outcome parser prepared) earlier) ∧
        Outcome parser prepared event result

/-- Nothing but the expected redirect with the state and a response is accepted. -/
structure RedirectAccepted (parser : UrlParser) (expected current : Url) (expectedState : Text)
    (parameters : Parameters) : Prop where
  sameTarget : current.scheme = expected.scheme ∧ current.username = expected.username ∧
    current.password = expected.password ∧ current.host = expected.host ∧
    current.port = expected.port ∧ current.path = expected.path
  queryPairs : ∀ pair ∈ expected.query.elim [] parser.form,
    pair ∈ current.query.elim [] parser.form
  ownParameters : HoldsPairs parameters (current.pairs parser)
  ownState : parameters.read "state".toList = some expectedState
  responds : Responds parameters

/-! ## When it holds -/

instance (parameters : Parameters) : Decidable (Responds parameters) :=
  decidable_of_iff
    (∃ name ∈ ["code", "access_token", "id_token", "error"],
      (parameters.read name.toList).isSome = true) <| by
    simp only [Responds, Option.isSome_iff_exists]

/-- The page whose write is not ignored. -/
def answerPage (prepared : PreparedCallback) (parameters : Parameters) : Page :=
  if ¬ Responds parameters ∧ prepared.responseType ≠ "code".toList then bridgePage
  else if parameters.read "state".toList ≠ some prepared.expectedState then mismatchPage
  else completedPage (parameters.read "error".toList).isSome

/-- A target that the peer sends parses; for the path of the callback its page is written, and with
the response type `code` it does not carry the state without a response. -/
structure Harmless (parser : UrlParser) (prepared : PreparedCallback) (connection : Connection) :
    Prop where
  parses : ∀ target, SendsGet connection target →
    (parser.parse ("http://localhost".toList ++ target)).isSome
  written : ∀ parameters, OnPath parser prepared connection parameters →
    connection.sendPage (answerPage prepared parameters) = .ok ()
  responds : ∀ parameters, OnPath parser prepared connection parameters →
    prepared.responseType = "code".toList →
    parameters.read "state".toList = some prepared.expectedState → Responds parameters

/-! ## Parameters of a connection -/

theorem hasOauthResponse_iff (parameters : Parameters) :
    hasOauthResponse parameters = true ↔ Responds parameters := by
  simp only [hasOauthResponse, Responds, List.any_eq_true, Option.isSome_iff_exists]

theorem HoldsPairs.read_eq {parameters others : Parameters} {pairs : List (Text × Text)}
    (held : HoldsPairs parameters pairs) (alsoHeld : HoldsPairs others pairs) (name : Text) :
    parameters.read name = others.read name := by
  ext value
  exact (held name value).trans (alsoHeld name value).symm

theorem responds_congr {parameters others : Parameters}
    (same : ∀ name, parameters.read name = others.read name) :
    Responds parameters ↔ Responds others := by
  simp only [Responds, same]

theorem answerPage_congr (prepared : PreparedCallback) {parameters others : Parameters}
    (same : ∀ name, parameters.read name = others.read name) :
    answerPage prepared parameters = answerPage prepared others := by
  simp only [answerPage, responds_congr same, same]

theorem SendsGet.unique {connection : Connection} {target other : Text}
    (sent : SendsGet connection target) (alsoSent : SendsGet connection other) :
    target = other :=
  Except.ok.inj ((readTarget_iff.mpr sent).symm.trans (readTarget_iff.mpr alsoSent))

/-! ## One connection -/

def Next.result? : Next → Option (Except String Parameters)
  | .goOn => none
  | .finish result => some result

/-- The outcome of the loop at an event. -/
def outcome (parser : UrlParser) (prepared : PreparedCallback) :
    Event → Option (Except String Parameters)
  | .connection connection => (handleConnection parser prepared connection).result?
  | .cancelled => some (.error "OAuth authorization was canceled.")
  | .deadline => some (.error "OAuth authorization timed out after five minutes.")
  | .acceptFailed error => some (.error error)

theorem waitForCallback_eq_findSome? (prepared : PreparedCallback) (events : List Event) :
    waitForCallback parser prepared events = events.findSome? (outcome parser prepared) := by
  induction events with
  | nil => rfl
  | cons event events ih =>
      cases event with
      | connection connection =>
          simp only [waitForCallback, List.findSome?_cons, outcome]
          cases handleConnection parser prepared connection with
          | goOn => exact ih
          | finish result => rfl
      | _ => rfl

theorem finish_afterPage_ne_none {connection : Connection} {page : Page} {next : Next}
    (unwritten : connection.sendPage page ≠ .ok ()) :
    ∃ error, afterPage connection page next = .finish (.error error) := by
  simp only [afterPage]
  cases written : connection.sendPage page with
  | ok =>
      exact absurd written unwritten
  | error error => exact ⟨error, rfl⟩

theorem afterPage_of_written {connection : Connection} {page : Page} (next : Next)
    (written : connection.sendPage page = .ok ()) : afterPage connection page next = next := by
  simp only [afterPage, written]

theorem result?_ignoringPage (connection : Connection) (page : Page) :
    (ignoringPage connection page .goOn).result? = none := by
  simp only [ignoringPage]
  cases connection.sendPage page <;> rfl

/-- What the loop returns at parameters is due for them. -/
def FinishesDue (prepared : PreparedCallback) (parameters : Parameters) (next : Next) : Prop :=
  (next.result? = none ↔
      ¬ (parameters.read "state".toList = some prepared.expectedState ∧ Responds parameters)) ∧
    ∀ result, next.result? = some result →
      parameters.read "state".toList = some prepared.expectedState ∧ Responds parameters ∧
        result = .ok parameters

section Pages

variable {prepared : PreparedCallback} {parameters : Parameters} {connection : Connection}
  {page : Page} {next : Next}

theorem not_finishesDue_unwritten (unwritten : connection.sendPage page ≠ .ok ()) :
    ¬ FinishesDue prepared parameters (afterPage connection page next) := by
  rcases @finish_afterPage_ne_none _ _ next unwritten with ⟨error, finished⟩
  rintro ⟨_, due⟩
  have returned := (due (.error error) (by rw [finished]; rfl)).2.2
  cases returned

theorem finishesDue_goOn
    (other : ¬ (parameters.read "state".toList = some prepared.expectedState ∧
      Responds parameters)) :
    FinishesDue prepared parameters .goOn :=
  ⟨iff_of_true rfl other, nofun⟩

theorem finishesDue_goOn_iff (written : connection.sendPage page = .ok ()) :
    FinishesDue prepared parameters (afterPage connection page .goOn) ↔
      ¬ (parameters.read "state".toList = some prepared.expectedState ∧ Responds parameters) := by
  rw [afterPage_of_written _ written]
  exact ⟨fun due => due.1.mp rfl, finishesDue_goOn⟩

theorem finishesDue_finish_iff
    (ownState : parameters.read "state".toList = some prepared.expectedState)
    (written : connection.sendPage page = .ok ()) :
    FinishesDue prepared parameters (afterPage connection page (.finish (.ok parameters))) ↔
      Responds parameters := by
  rw [afterPage_of_written _ written]
  constructor
  · exact fun due => (due.2 _ rfl).2.1
  · intro responds
    refine ⟨iff_of_false (by simp [Next.result?]) (not_not.mpr ⟨ownState, responds⟩), ?_⟩
    rintro result ⟨⟩
    exact ⟨ownState, responds, rfl⟩

end Pages

theorem handleParameters_ok {prepared : PreparedCallback} {connection : Connection}
    {parameters found : Parameters}
    (returned : (handleParameters prepared connection parameters).result? = some (.ok found)) :
    found = parameters := by
  have after (page : Page) (next : Next)
      (same : ∀ other, next.result? = some (.ok other) → other = parameters)
      (isFound : (afterPage connection page next).result? = some (.ok found)) :
      found = parameters := by
    by_cases written : connection.sendPage page = .ok ()
    · rw [afterPage_of_written next written] at isFound
      exact same found isFound
    · rcases @finish_afterPage_ne_none _ _ next written with ⟨error, finished⟩
      rw [finished] at isFound
      cases isFound
  simp only [handleParameters] at returned
  split at returned
  case isTrue => exact after _ _ (fun _ found => by cases found) returned
  case isFalse =>
      split at returned
      case isTrue => exact after _ _ (fun _ found => by cases found) returned
      case isFalse =>
          refine after _ _ ?_ returned
          rintro other ⟨⟩
          rfl

/-- The loop returns what is due for a request for the path exactly if its page is written and the
state does not come without a response. -/
theorem handleParameters_iff (prepared : PreparedCallback) (connection : Connection)
    (parameters : Parameters) :
    FinishesDue prepared parameters (handleParameters prepared connection parameters) ↔
      connection.sendPage (answerPage prepared parameters) = .ok () ∧
        (prepared.responseType = "code".toList →
          parameters.read "state".toList = some prepared.expectedState →
          Responds parameters) := by
  simp only [handleParameters, answerPage, hasOauthResponse_iff]
  by_cases bridged : ¬ Responds parameters ∧ prepared.responseType ≠ "code".toList
  · rw [if_pos bridged, if_pos bridged]
    by_cases written : connection.sendPage bridgePage = .ok ()
    · rw [finishesDue_goOn_iff written]
      exact iff_of_true (fun genuine => bridged.1 genuine.2)
        ⟨written, fun isCode => absurd isCode bridged.2⟩
    · exact iff_of_false (not_finishesDue_unwritten written) fun both => written both.1
  · rw [if_neg bridged, if_neg bridged]
    by_cases ownState : parameters.read "state".toList = some prepared.expectedState
    · rw [if_neg (not_not.mpr ownState), if_neg (not_not.mpr ownState)]
      by_cases written : connection.sendPage
          (completedPage (parameters.read "error".toList).isSome) = .ok ()
      · rw [finishesDue_finish_iff ownState written]
        constructor
        · exact fun responds => ⟨written, fun _ _ => responds⟩
        · rintro ⟨_, responds⟩
          by_contra silent
          exact bridged ⟨silent, fun isCode => silent (responds isCode ownState)⟩
      · exact iff_of_false (not_finishesDue_unwritten written) fun both => written both.1
    · rw [if_pos ownState, if_pos ownState]
      by_cases written : connection.sendPage mismatchPage = .ok ()
      · rw [finishesDue_goOn_iff written]
        exact iff_of_true (fun genuine => ownState genuine.1)
          ⟨written, fun _ own => absurd own ownState⟩
      · exact iff_of_false (not_finishesDue_unwritten written) fun both => written both.1

theorem findsDue_passed {prepared : PreparedCallback} {connection : Connection}
    (passed : (handleConnection parser prepared connection).result? = none)
    (offPath : ∀ parameters, ¬ OnPath parser prepared connection parameters) :
    FindsDue (Outcome parser prepared) (outcome parser prepared) [.connection connection] := by
  rw [findsDue_singleton, outcome, passed]
  refine ⟨iff_of_true rfl ?_, nofun⟩
  rintro ⟨_, ⟨genuine⟩⟩
  exact offPath _ genuine.toOnPath

theorem harmless_offPath {prepared : PreparedCallback} {connection : Connection}
    (parses : ∀ target, SendsGet connection target →
      (parser.parse ("http://localhost".toList ++ target)).isSome)
    (offPath : ∀ parameters, ¬ OnPath parser prepared connection parameters) :
    Harmless parser prepared connection :=
  ⟨parses, fun parameters onPath => absurd onPath (offPath parameters),
    fun parameters onPath => absurd onPath (offPath parameters)⟩

section OnPath

variable {prepared : PreparedCallback} {connection : Connection} {target : Text} {callback : Url}
  (sent : SendsGet connection target)
  (parsed : parser.parse ("http://localhost".toList ++ target) = some callback)

include sent parsed

theorem onPath_iff {parameters : Parameters} :
    OnPath parser prepared connection parameters ↔
      callback.path = prepared.callbackPath ∧ HoldsPairs parameters (callback.pairs parser) := by
  constructor
  · rintro ⟨other, url, alsoSent, alsoParsed, samePath, held⟩
    obtain rfl := alsoSent.unique sent
    obtain rfl : url = callback := Option.some.inj (alsoParsed.symm.trans parsed)
    exact ⟨samePath, held⟩
  · rintro ⟨samePath, held⟩
    exact ⟨target, callback, sent, parsed, samePath, held⟩

theorem harmless_onPath_iff (samePath : callback.path = prepared.callbackPath) :
    Harmless parser prepared connection ↔
      connection.sendPage (answerPage prepared (urlParameters parser callback)) = .ok () ∧
        (prepared.responseType = "code".toList →
          (urlParameters parser callback).read "state".toList = some prepared.expectedState →
          Responds (urlParameters parser callback)) := by
  have held := holdsPairs_urlParameters parser callback
  have own : OnPath parser prepared connection (urlParameters parser callback) :=
    (onPath_iff sent parsed).mpr ⟨samePath, held⟩
  constructor
  · exact fun harmless => ⟨harmless.written _ own, harmless.responds _ own⟩
  · rintro ⟨written, responds⟩
    have same {parameters : Parameters} (onPath : OnPath parser prepared connection parameters) :
        ∀ name, parameters.read name = (urlParameters parser callback).read name :=
      ((onPath_iff sent parsed).mp onPath).2.read_eq held
    refine ⟨?_, fun parameters onPath => ?_, fun parameters onPath isCode ownState => ?_⟩
    · intro other alsoSent
      rw [alsoSent.unique sent, parsed]
      rfl
    · rw [answerPage_congr prepared (same onPath)]
      exact written
    · rw [same onPath] at ownState
      exact (responds_congr (same onPath)).mpr (responds isCode ownState)

theorem outcome_onPath_iff {parameters : Parameters} :
    Outcome parser prepared (.connection connection) (.ok parameters) ↔
      callback.path = prepared.callbackPath ∧ HoldsPairs parameters (callback.pairs parser) ∧
        parameters.read "state".toList = some prepared.expectedState ∧ Responds parameters := by
  constructor
  · rintro ⟨onPath, ownState, responds⟩
    rcases (onPath_iff sent parsed).mp onPath with ⟨samePath, held⟩
    exact ⟨samePath, held, ownState, responds⟩
  · rintro ⟨samePath, held, ownState, responds⟩
    exact .delivered ⟨(onPath_iff sent parsed).mpr ⟨samePath, held⟩, ownState, responds⟩

/-- What is due for a connection on the path is what is due for its parameters. -/
theorem findsDue_onPath_iff (samePath : callback.path = prepared.callbackPath)
    (handled : handleConnection parser prepared connection =
      handleParameters prepared connection (urlParameters parser callback)) :
    FindsDue (Outcome parser prepared) (outcome parser prepared) [.connection connection] ↔
      FinishesDue prepared (urlParameters parser callback)
        (handleParameters prepared connection (urlParameters parser callback)) := by
  have held := holdsPairs_urlParameters parser callback
  have decides : Decides (Outcome parser prepared) (.connection connection) ↔
      (urlParameters parser callback).read "state".toList = some prepared.expectedState ∧
        Responds (urlParameters parser callback) := by
    constructor
    · rintro ⟨_, ⟨genuine⟩⟩
      have same := ((onPath_iff sent parsed).mp genuine.toOnPath).2.read_eq held
      rw [← same, ← responds_congr same]
      exact ⟨genuine.ownState, genuine.responds⟩
    · exact fun genuine => ⟨_, (outcome_onPath_iff sent parsed).mpr ⟨samePath, held, genuine⟩⟩
  rw [findsDue_singleton, outcome, handled, decides, FinishesDue]
  refine and_congr_right fun _ => forall_congr' fun result => imp_congr_right fun returned => ?_
  constructor
  · intro due
    cases result with
    | error error => cases due
    | ok parameters =>
        obtain rfl : parameters = urlParameters parser callback := by
          simpa using handleParameters_ok returned
        rcases (outcome_onPath_iff sent parsed).mp due with ⟨_, _, ownState, responds⟩
        exact ⟨ownState, responds, rfl⟩
  · rintro ⟨ownState, responds, rfl⟩
    exact (outcome_onPath_iff sent parsed).mpr ⟨samePath, held, ownState, responds⟩

end OnPath

/-- The loop does what is due at a connection exactly if that is harmless. -/
theorem findsDue_connection_iff (prepared : PreparedCallback) (connection : Connection) :
    FindsDue (Outcome parser prepared) (outcome parser prepared) [.connection connection] ↔
      Harmless parser prepared connection := by
  cases read : readTarget connection with
  | error failure =>
      have unsent (target : Text) : ¬ SendsGet connection target := by
        rw [← readTarget_iff, read]
        exact nofun
      have offPath (parameters : Parameters) :
          ¬ OnPath parser prepared connection parameters := by
        rintro ⟨target, _, sent, _⟩
        exact unsent target sent
      refine iff_of_true (findsDue_passed ?_ offPath)
        (harmless_offPath (fun target sent => absurd sent (unsent target)) offPath)
      simp only [handleConnection, read, result?_ignoringPage]
  | ok target =>
      have sent := readTarget_iff.mp read
      cases parsed : parser.parse ("http://localhost".toList ++ target) with
      | none =>
          have finished : outcome parser prepared (.connection connection) =
              some (.error "The OAuth callback target was malformed.") := by
            simp only [outcome, handleConnection, read, callbackUrl, parsed, Next.result?]
          refine iff_of_false ?_ fun harmless => ?_
          · rw [findsDue_singleton, finished]
            exact fun due => nomatch due.2 _ rfl
          · have isSome := harmless.parses target sent
            rw [parsed] at isSome
            cases isSome
      | some callback =>
          by_cases samePath : callback.path = prepared.callbackPath
          · have handled : handleConnection parser prepared connection =
                handleParameters prepared connection (urlParameters parser callback) := by
              simp only [handleConnection, read, callbackUrl, parsed, samePath, ne_eq,
                not_true_eq_false, if_false]
            rw [findsDue_onPath_iff sent parsed samePath handled, handleParameters_iff,
              harmless_onPath_iff sent parsed samePath]
          · have offPath (parameters : Parameters) :
                ¬ OnPath parser prepared connection parameters := by
              rw [onPath_iff sent parsed]
              exact fun onPath => samePath onPath.1
            have parses (other : Text) (alsoSent : SendsGet connection other) :
                (parser.parse ("http://localhost".toList ++ other)).isSome := by
              rw [alsoSent.unique sent, parsed]
              rfl
            refine iff_of_true (findsDue_passed ?_ offPath) (harmless_offPath parses offPath)
            simp only [handleConnection, read, callbackUrl, parsed, ne_eq, samePath,
              not_false_eq_true, if_true, result?_ignoringPage]

/-! ## Every sequence of connections -/

theorem findsDue_event_iff (prepared : PreparedCallback) (event : Event) :
    FindsDue (Outcome parser prepared) (outcome parser prepared) [event] ↔
      ∀ connection, event = .connection connection → Harmless parser prepared connection := by
  have ended {error : String} (returned : outcome parser prepared event = some (.error error))
      (due : ∀ result, Outcome parser prepared event result ↔ result = .error error) :
      FindsDue (Outcome parser prepared) (outcome parser prepared) [event] := by
    simp [findsDue_singleton, returned, Decides, due]
  cases event with
  | connection connection =>
      rw [findsDue_connection_iff]
      simp
  | cancelled =>
      refine iff_of_true (ended rfl fun result => ⟨?_, ?_⟩) nofun
      · rintro ⟨⟩
        rfl
      · rintro rfl
        exact .cancelled
  | deadline =>
      refine iff_of_true (ended rfl fun result => ⟨?_, ?_⟩) nofun
      · rintro ⟨⟩
        rfl
      · rintro rfl
        exact .deadline
  | acceptFailed error =>
      refine iff_of_true (ended rfl fun result => ⟨?_, ?_⟩) nofun
      · rintro ⟨⟩
        rfl
      · rintro rfl
        exact .acceptFailed error

theorem deliversGenuine_iff (prepared : PreparedCallback) (events : List Event) :
    DeliversGenuine parser prepared events ↔
      ∀ before connection after, events = before ++ .connection connection :: after →
        (∀ earlier ∈ before, ¬ Decides (Outcome parser prepared) earlier) →
        Harmless parser prepared connection := by
  have prefixes : DeliversGenuine parser prepared events ↔
      ∀ n, FindsDue (Outcome parser prepared) (outcome parser prepared) (events.take n) := by
    simp only [DeliversGenuine, FindsDue, waitForCallback_eq_findSome?]
  rw [prefixes, findsDue_take_iff]
  constructor
  · intro finds before connection after split undecided
    exact (findsDue_event_iff prepared _).mp (finds before _ after split undecided) connection rfl
  · intro harmless before event after split undecided
    apply (findsDue_event_iff prepared event).mpr
    rintro connection rfl
    exact harmless before connection after split undecided

theorem redirectAccepted_of_checked {expected current : Url} {expectedState : Text}
    {parameters : Parameters}
    (checked : checkedRedirectParameters parser expected current expectedState =
      some (.ok parameters)) :
    RedirectAccepted parser expected current expectedState parameters := by
  simp only [checkedRedirectParameters, Option.map_eq_some_iff] at checked
  rcases checked with ⟨found, redirected, state⟩
  split at state
  case isTrue => exact absurd state (by simp)
  case isFalse ownState =>
      rw [Except.ok.injEq] at state
      subst state
      simp only [redirectParameters] at redirected
      split at redirected
      case isTrue => exact absurd redirected (by simp)
      case isFalse isTarget =>
          split at redirected
          case isFalse => exact absurd redirected (by simp)
          case isTrue hasResponse =>
              rw [Option.some.injEq] at redirected
              subst redirected
              rw [not_not] at isTarget ownState
              simp only [redirectTargetMatches] at isTarget
              split at isTarget
              case isTrue => exact absurd isTarget (by simp)
              case isFalse same =>
                  simp only [not_or, not_not] at same
                  rcases same with ⟨scheme, username, password, host, port, path⟩
                  refine ⟨⟨scheme.symm, username.symm, password.symm, host.symm, port.symm,
                    path.symm⟩, ?_, holdsPairs_urlParameters parser current, ownState,
                    (hasOauthResponse_iff _).mp hasResponse⟩
                  intro pair pairMem
                  rw [List.all_eq_true] at isTarget
                  simp only [Url.queryPairs_eq] at isTarget
                  simpa using isTarget pair pairMem

/-- The listener delivers genuine callbacks exactly if the connections that it takes are harmless,
and a redirect is accepted only if it is the expected one. -/
theorem callback_delivered_iff (parser : UrlParser) (prepared : PreparedCallback)
    (events : List Event) :
    (DeliversGenuine parser prepared events ∧
      ∀ expected current expectedState parameters,
        checkedRedirectParameters parser expected current expectedState = some (.ok parameters) →
        RedirectAccepted parser expected current expectedState parameters) ↔
      ∀ before connection after, events = before ++ .connection connection :: after →
        (∀ earlier ∈ before, ¬ Decides (Outcome parser prepared) earlier) →
        Harmless parser prepared connection := by
  rw [← deliversGenuine_iff, and_iff_left]
  intro expected current expectedState parameters checked
  exact redirectAccepted_of_checked checked

/-! ## A connection that ends the authorization -/

def plainParser : UrlParser where
  parse text :=
    let rest := text.drop "http://localhost".length
    let address := rest.takeWhile (· ≠ '#')
    some {
      scheme := "http".toList
      username := []
      password := none
      host := some "localhost".toList
      port := none
      path := address.takeWhile (· ≠ '?')
      query := (address.dropWhile (· ≠ '?')).tail?
      fragment := (rest.dropWhile (· ≠ '#')).tail? }
  form text := (text.splitOn '&').map fun pair =>
    (pair.takeWhile (· ≠ '='), (pair.dropWhile (· ≠ '=')).drop 1)

def codeCallback : PreparedCallback where
  callbackPath := "/callback".toList
  expectedState := "right".toList
  responseType := "code".toList

def cutRequest (chunks : List String) : List Read :=
  chunks.map fun chunk => .data (Multipart.utf8 chunk.toList)

/-- A request for another path whose peer has gone when the page is written. -/
def iconConnection : Connection where
  reads := cutRequest ["GET /favicon.ico HTTP/1.1\r\n\r\n"]
  sendPage _ := .error "Broken pipe (os error 32)"

/-- The callback, cut within its path, its query and the end of its head. -/
def codeConnection : Connection where
  reads := cutRequest ["GET /call", "back?state=wrong&code=1&st",
    "ate=right HTTP/1.1\r\n\r", "\n"]
  sendPage _ := .ok ()

theorem iconConnection_sendsGet : SendsGet iconConnection "/favicon.ico".toList :=
  readTarget_iff.mp rfl

theorem codeConnection_sendsGet :
    SendsGet codeConnection "/callback?state=wrong&code=1&state=right".toList :=
  readTarget_iff.mp rfl

/-- The callback is delivered with the last of its states, and the connection before it is not
noticed. -/
theorem codeConnection_delivered :
    DeliversGenuine plainParser codeCallback
      [.connection iconConnection, .connection codeConnection] ∧
      ∃ parameters, Genuine plainParser codeCallback codeConnection parameters ∧
        parameters.read "code".toList = some "1".toList ∧
        waitForCallback plainParser codeCallback
          [.connection iconConnection, .connection codeConnection] = some (.ok parameters) := by
  have iconHarmless : Harmless plainParser codeCallback iconConnection := by
    refine harmless_offPath (fun target sent => rfl) fun parameters => ?_
    rw [onPath_iff iconConnection_sendsGet rfl]
    exact fun onPath => absurd onPath.1 (by decide)
  have codeHarmless : Harmless plainParser codeCallback codeConnection := by
    rw [harmless_onPath_iff codeConnection_sendsGet rfl (by decide)]
    exact ⟨rfl, fun _ _ => by decide⟩
  refine ⟨((callback_delivered_iff plainParser codeCallback _).mpr ?_).1, _,
    ⟨(onPath_iff codeConnection_sendsGet rfl).mpr
      ⟨by decide, holdsPairs_urlParameters plainParser _⟩, by decide, by decide⟩, by decide, rfl⟩
  intro before connection after split _
  have isMem : Event.connection connection ∈
      [.connection iconConnection, .connection codeConnection] := split ▸ by simp
  rcases List.mem_pair.mp isMem with isIcon | isCode
  · exact Event.connection.inj isIcon ▸ iconHarmless
  · exact Event.connection.inj isCode ▸ codeHarmless

/-- A request with another state whose peer has gone when the page is written. -/
def strayConnection : Connection where
  reads := cutRequest ["GET /callback?state=wrong&code=1 HTTP/1.1\r\n\r\n"]
  sendPage _ := .error "Broken pipe (os error 32)"

theorem strayConnection_returns :
    ¬ DeliversGenuine plainParser codeCallback [.connection strayConnection] := by
  intro delivers
  have returned : waitForCallback plainParser codeCallback [.connection strayConnection] =
      some (.error "Broken pipe (os error 32)") := rfl
  rcases (delivers 1).2 _ returned with ⟨before, event, after, split, _, due⟩
  have isMem : event ∈ [Event.connection strayConnection] := by
    rw [List.take_succ_cons, List.take_zero] at split
    rw [split]
    simp
  rw [List.mem_singleton.mp isMem] at due
  cases due

end Brunomnia.OAuthCallback
