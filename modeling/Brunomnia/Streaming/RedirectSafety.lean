import Brunomnia.Streaming.Redirects

/-!
# Safety of redirected handshakes

Which headers reach which place. What the first redirect away from an origin drops is never sent
again; all other headers are carried to every place, but of a header with several values only the
last one is.
-/

namespace Brunomnia.Streaming.Redirects

open Codegen (Text)

/-! ## Header maps -/

namespace HeaderMap

variable (headers : HeaderMap) (name other value : Text)

theorem values_append (more : HeaderMap) :
    HeaderMap.values (headers ++ more) name = headers.values name ++ more.values name := by
  simp [values]

theorem values_singleton :
    HeaderMap.values [(other, value)] name = if name = other then [value] else [] := by
  by_cases same : name = other
  · simp [values, same]
  · simp [values, same, Ne.symm same]

theorem values_remove :
    (headers.remove other).values name = if name = other then [] else headers.values name := by
  unfold values remove
  rw [List.filter_filter]
  split
  case isTrue same => simp [same]
  case isFalse different =>
    congr 1
    apply List.filter_congr
    intro header _
    by_cases isName : header.1 = name
    · simp [isName, different]
    · simp [isName]

theorem values_insert :
    (headers.insert other value).values name =
      if name = other then [value] else headers.values name := by
  rw [insert, values_append, values_remove, values_singleton]
  split
  · rfl
  · rw [List.append_nil]

theorem values_orInsert (different : name ≠ other) :
    (headers.orInsert other value).values name = headers.values name := by
  unfold orInsert
  split
  · rw [values_append, values_singleton, if_neg different, List.append_nil]
  · rfl

theorem values_foldl_insert (carried : HeaderMap) :
    HeaderMap.values (carried.foldl (fun request header => request.insert header.1 header.2)
        headers) name =
      if carried.values name = [] then headers.values name
      else (carried.values name).getLast?.toList := by
  induction carried using List.reverseRecOn with
  | nil => rfl
  | append_singleton carried header ih =>
      rw [List.foldl_append, List.foldl_cons, List.foldl_nil, values_insert, ih, values_append]
      rcases header with ⟨other, value⟩
      rw [values_singleton]
      by_cases same : name = other
      · simp [same]
      · simp [same]

end HeaderMap

theorem values_foldl_remove {names : List Text} {name : Text} (headers : HeaderMap) :
    HeaderMap.values (names.foldl HeaderMap.remove headers) name =
      if name ∈ names then [] else headers.values name := by
  induction names generalizing headers with
  | nil => rfl
  | cons first names ih =>
      rw [List.foldl_cons, ih, HeaderMap.values_remove]
      by_cases same : name = first
      · simp [same]
      · simp [same]

/-! ## Kinds of headers -/

/-- Headers that the handshake makes itself. -/
def handshakeNames : List Text :=
  [hostName, connectionName, upgradeName, keyName, versionName]

/-- Headers of the user: neither credentials nor headers of the handshake or of the connection to a
proxy. -/
def IsCustom (name : Text) : Prop :=
  name ∉ handshakeNames ++
    [authorizationName, cookieName, proxyAuthorizationName, proxyConnectionName]

section Safety

variable {Url : Type} (crates : Crates Url)

/-- What the crates document: a URL is read back from its text, and a new handshake has its own
headers only. -/
structure Documented : Prop where
  parse_asStr : ∀ url, crates.parse (crates.asStr url) = some url
  handshake : ∀ text key headers, crates.intoClientRequest text key = some headers →
    ∀ name, headers.values name ≠ [] → name ∈ handshakeNames

/-- A request without credentials, for the host that the URL names. -/
def WithoutCredentials (url : Url) (request : HeaderMap) : Prop :=
  request.values authorizationName = [] ∧ request.values cookieName = [] ∧
    ∃ key handshake, crates.intoClientRequest (crates.asStr url) key = some handshake ∧
      request.values hostName = handshake.values hostName

/-- The authorization that comes from the proxy. -/
def derivedAuthorization (forwardProxy : Option Url) : List Text :=
  match forwardProxy.map (proxyAuthorization crates) with
  | some (.ok (some authorization)) => [authorization]
  | _ => []

/-- A request can be sent: there is a stream, and the credentials of its proxy can be read. -/
def Hop.Sends (hop : Hop Url) : Prop :=
  ∃ forwardProxy, hop.stream = .ok forwardProxy ∧
    ∀ proxy ∈ forwardProxy, ∃ authorization, proxyAuthorization crates proxy = .ok authorization

/-- What a handshake does at a place. -/
def attemptAt (request : HeaderMap) (url : Url) (hop : Hop Url) : Attempt Url where
  url
  forwardProxy := hop.stream.toOption.join
  sent := hop.stream.toOption.bind fun forwardProxy =>
    (forwardedRequest crates request forwardProxy).toOption

/-! ## One place -/

variable {crates} {request sent headers carried : HeaderMap} {url next : Url} {hop : Hop Url}
  {name : Text} {forwardProxy : Option Url} {followed : ℕ} {transport : TransportConfig}
  {hops : List (Hop Url)} {key : Text}

theorem values_forwardedRequest (isSent : forwardedRequest crates request forwardProxy = .ok sent)
    (notAuthorization : name ≠ proxyAuthorizationName)
    (notConnection : name ≠ proxyConnectionName) : sent.values name = request.values name := by
  cases forwardProxy with
  | none =>
      cases isSent
      rfl
  | some proxy =>
      simp only [forwardedRequest] at isSent
      cases derived : proxyAuthorization crates proxy with
      | error message =>
          rw [derived] at isSent
          cases isSent
      | ok authorization =>
          rw [derived] at isSent
          cases isSent
          cases authorization with
          | none => exact HeaderMap.values_orInsert _ _ _ _ notConnection
          | some authorization =>
              rw [HeaderMap.values_orInsert _ _ _ _ notConnection, HeaderMap.values_insert,
                if_neg notAuthorization]

theorem values_proxyAuthorization
    (isSent : forwardedRequest crates request forwardProxy = .ok sent)
    (noAuthorization : request.values proxyAuthorizationName = []) :
    sent.values proxyAuthorizationName = derivedAuthorization crates forwardProxy := by
  cases forwardProxy with
  | none =>
      cases isSent
      exact noAuthorization
  | some proxy =>
      simp only [forwardedRequest] at isSent
      unfold derivedAuthorization
      cases derived : proxyAuthorization crates proxy with
      | error message =>
          rw [derived] at isSent
          cases isSent
      | ok authorization =>
          rw [derived] at isSent
          cases isSent
          rw [Option.map_some, derived]
          cases authorization with
          | none =>
              rw [HeaderMap.values_orInsert _ _ _ _ (by decide), noAuthorization]
          | some authorization =>
              rw [HeaderMap.values_orInsert _ _ _ _ (by decide), HeaderMap.values_insert,
                if_pos rfl]

theorem attemptAt_sent_isSome : (attemptAt crates request url hop).sent.isSome ↔
    hop.Sends crates := by
  unfold attemptAt Hop.Sends
  cases hop.stream with
  | error message => simp [Except.toOption]
  | ok forwardProxy =>
      cases forwardProxy with
      | none => simp [Except.toOption, forwardedRequest]
      | some proxy =>
          cases derived : proxyAuthorization crates proxy with
          | error message =>
              simp [Except.toOption, forwardedRequest, derived]
          | ok authorization =>
              simp [Except.toOption, forwardedRequest, derived]

theorem forwardedRequest_of_attemptAt
    (isSent : (attemptAt crates request url hop).sent = some sent) :
    forwardedRequest crates request (attemptAt crates request url hop).forwardProxy = .ok sent := by
  unfold attemptAt at isSent ⊢
  cases streamEq : hop.stream with
  | error message => simp [streamEq, Except.toOption] at isSent
  | ok forwardProxy =>
      simp only [streamEq, Except.toOption, Option.bind_some, Option.join_some] at isSent ⊢
      cases forwarded : forwardedRequest crates request forwardProxy with
      | error message => simp [forwarded] at isSent
      | ok other =>
          rw [forwarded] at isSent
          cases isSent
          rfl

theorem connectOnce_eq (documented : Documented crates)
    (isWebSocket : isWebSocketScheme (crates.scheme url) = true) :
    (connectOnce crates request (crates.asStr url) hop).1 =
      some (attemptAt crates request url hop) := by
  unfold connectOnce attemptAt
  rw [documented.parse_asStr]
  simp only [isWebSocket, if_true]
  cases hop.stream with
  | error message => rfl
  | ok forwardProxy =>
      cases forwarded : forwardedRequest crates request forwardProxy with
      | error message => simp [forwarded, Except.toOption]
      | ok sent => simp [forwarded, Except.toOption]

theorem connectOnce_http {response : WebSocketResponse} (documented : Documented crates)
    (isWebSocket : isWebSocketScheme (crates.scheme url) = true) :
    (connectOnce crates request (crates.asStr url) hop).2 = .error (.http response) ↔
      hop.Sends crates ∧ hop.answer = .http response := by
  have sends := @attemptAt_sent_isSome _ crates request url hop
  unfold attemptAt at sends
  unfold connectOnce
  rw [documented.parse_asStr, ← sends]
  simp only [isWebSocket, if_true]
  cases hop.stream with
  | error message => simp [Except.toOption]
  | ok forwardProxy =>
      cases forwarded : forwardedRequest crates request forwardProxy with
      | error message => simp [forwarded, Except.toOption]
      | ok sent => cases hop.answer <;> simp [forwarded, Except.toOption]

/-! ## The way to the next place -/

structure Follows (crates : Crates Url) (transport : TransportConfig) (url : Url)
    (headers : HeaderMap) (followed : ℕ) (hop : Hop Url) (next : Url)
    (carried request : HeaderMap) : Prop where
  sends : hop.Sends crates
  redirects : ∃ response, hop.answer = .http response ∧ isRedirection response = true ∧
    websocketRedirectUrl crates url response = .ok next
  allowed : websocketRedirectAllowed transport followed = true
  carries : carried = carriedHeaders crates url next headers
  prepared : websocketRequestForUrl crates next hop.nextKey carried = .ok request

theorem isWebSocketScheme_of_websocketRedirectUrl {response : WebSocketResponse}
    (redirects : websocketRedirectUrl crates url response = .ok next) :
    isWebSocketScheme (crates.scheme next) = true := by
  unfold websocketRedirectUrl at redirects
  split at redirects
  · cases redirects
  · cases redirects
  · split at redirects
    · cases redirects
    · split at redirects
      case isTrue isWebSocket =>
        cases redirects
        exact isWebSocket
      case isFalse => cases redirects

theorem afterAnswer_eq_ok {answer : Except ConnectError Unit} {prepared : HeaderMap} :
    afterAnswer crates transport url headers followed key answer =
        .ok (next, carried, prepared) ↔
      ∃ response, answer = .error (.http response) ∧ isRedirection response = true ∧
        websocketRedirectAllowed transport followed = true ∧
        websocketRedirectUrl crates url response = .ok next ∧
        carried = carriedHeaders crates url next headers ∧
        websocketRequestForUrl crates next key carried = .ok prepared := by
  rcases answer with (message | response | message) | _
  · simp [afterAnswer]
  · simp only [afterAnswer, Except.error.injEq, ConnectError.http.injEq, exists_eq_left']
    by_cases redirects : isRedirection response = true
    · by_cases allowed : websocketRedirectAllowed transport followed = true
      · simp only [redirects, allowed, if_true, true_and]
        cases urlEq : websocketRedirectUrl crates url response with
        | error message => simp
        | ok other =>
            simp only [Except.ok.injEq]
            cases preparedEq : websocketRequestForUrl crates other key
                (carriedHeaders crates url other headers) with
            | error message =>
                simp only [reduceCtorEq, false_iff]
                rintro ⟨rfl, rfl, isPrepared⟩
                rw [preparedEq] at isPrepared
                cases isPrepared
            | ok otherPrepared =>
                constructor
                · intro same
                  cases same
                  exact ⟨rfl, rfl, preparedEq⟩
                · rintro ⟨rfl, rfl, isPrepared⟩
                  rw [preparedEq] at isPrepared
                  cases isPrepared
                  rfl
      · by_cases follows : transport.followRedirects = true <;> simp [redirects, allowed, follows]
    · simp [redirects]
  · simp [afterAnswer]
  · simp [afterAnswer]

/-- An answer that is not followed ends the handshake, and one that is followed leads to the
attempts of the next places. -/
theorem connectLoop_cons (transport : TransportConfig) (hop : Hop Url) (hops : List (Hop Url))
    (headers request : HeaderMap) (followed : ℕ) (documented : Documented crates)
    (isWebSocket : isWebSocketScheme (crates.scheme url) = true) :
    ((connectLoop crates transport (hop :: hops) url headers request followed).1 =
        [attemptAt crates request url hop] ∧
      ∀ next carried prepared,
        ¬ Follows crates transport url headers followed hop next carried prepared) ∨
    ∃ next carried prepared,
      Follows crates transport url headers followed hop next carried prepared ∧
      (connectLoop crates transport (hop :: hops) url headers request followed).1 =
        attemptAt crates request url hop ::
          (connectLoop crates transport hops next carried prepared
            (min (followed + 1) usizeMax)).1 := by
  have attemptEq := @connectOnce_eq _ crates request url hop documented isWebSocket
  have http := fun response =>
    @connectOnce_http _ crates request url hop response documented isWebSocket
  rw [connectLoop]
  rcases onceEq : connectOnce crates request (crates.asStr url) hop with ⟨attempt, answer⟩
  rw [onceEq] at attemptEq http
  dsimp only at attemptEq http ⊢
  subst attemptEq
  cases answerEq : afterAnswer crates transport url headers followed hop.nextKey answer with
  | error result =>
      left
      refine ⟨rfl, ?_⟩
      rintro next carried prepared ⟨sends, ⟨response, isAnswer, isRedirect, urlEq⟩, allowed,
        carries, isPrepared⟩
      have follows := afterAnswer_eq_ok.mpr ⟨response,
        (http response).mpr ⟨sends, isAnswer⟩, isRedirect, allowed, urlEq, carries, isPrepared⟩
      rw [answerEq] at follows
      cases follows
  | ok place =>
      rcases place with ⟨next, carried, prepared⟩
      right
      rcases afterAnswer_eq_ok.mp answerEq with ⟨response, isHttp, isRedirect, allowed, urlEq,
        carries, isPrepared⟩
      rcases (http response).mp isHttp with ⟨sends, isAnswer⟩
      refine ⟨next, carried, prepared, ⟨sends, ⟨response, isAnswer, isRedirect, urlEq⟩, allowed,
        carries, isPrepared⟩, rfl⟩

theorem Follows.isWebSocket {prepared : HeaderMap}
    (follows : Follows crates transport url headers followed hop next carried prepared) :
    isWebSocketScheme (crates.scheme next) = true := by
  rcases follows.redirects with ⟨_, _, _, urlEq⟩
  exact isWebSocketScheme_of_websocketRedirectUrl urlEq

/-! ## All places -/

/-- Every attempt makes a request that is ready for its place, if carried headers stay fit to make
ready requests. -/
theorem ready_of_mem_connectLoop (Fit : HeaderMap → Prop) (Ready : Url → HeaderMap → Prop)
    (documented : Documented crates)
    (carries : ∀ {current next headers}, Fit headers →
      Fit (carriedHeaders crates current next headers))
    (readies : ∀ {next key headers request}, Fit headers →
      websocketRequestForUrl crates next key headers = .ok request → Ready next request)
    (isWebSocket : isWebSocketScheme (crates.scheme url) = true) (fit : Fit headers)
    (ready : Ready url request) {attempt : Attempt Url}
    (attemptMem : attempt ∈ (connectLoop crates transport hops url headers request followed).1) :
    isWebSocketScheme (crates.scheme attempt.url) = true ∧
      ∃ prepared hop, Ready attempt.url prepared ∧
        attempt = attemptAt crates prepared attempt.url hop := by
  induction hops generalizing url headers request followed with
  | nil => simp [connectLoop] at attemptMem
  | cons hop hops ih =>
      rcases connectLoop_cons transport hop hops headers request followed documented isWebSocket
        with ⟨alone, _⟩ | ⟨next, carried, prepared, follows, more⟩
      · rw [alone, List.mem_singleton] at attemptMem
        subst attemptMem
        exact ⟨isWebSocket, request, hop, ready, rfl⟩
      · rw [more, List.mem_cons] at attemptMem
        rcases attemptMem with rfl | later
        · exact ⟨isWebSocket, request, hop, ready, rfl⟩
        · have fitNext : Fit carried := by
            rw [follows.carries]
            exact carries fit
          exact ih follows.isWebSocket fitNext (readies fitNext follows.prepared) later

/-! ## What is carried -/

theorem values_carriedHeaders :
    (carriedHeaders crates url next headers).values name =
      if websocketSameOrigin crates url next = true ∨
        name ∉ [cookieName, authorizationName, hostName] then headers.values name else [] := by
  unfold carriedHeaders
  by_cases sameOrigin : websocketSameOrigin crates url next = true
  · simp [sameOrigin]
  · rw [if_neg sameOrigin, HeaderMap.values_remove, HeaderMap.values_remove,
      HeaderMap.values_remove]
    by_cases isCookie : name = cookieName
    · simp [sameOrigin, isCookie]
    · by_cases isAuthorization : name = authorizationName
      · simp [sameOrigin, isAuthorization]
      · by_cases isHost : name = hostName
        · simp [sameOrigin, isHost]
        · simp [isCookie, isAuthorization, isHost]

theorem values_carriedHeaders_eq_nil (absent : headers.values name = []) :
    (carriedHeaders crates url next headers).values name = [] := by
  rw [values_carriedHeaders]
  split
  · exact absent
  · rfl

theorem websocketRequestForUrl_eq_ok
    (prepared : websocketRequestForUrl crates url key headers = .ok request) :
    ∃ handshake, crates.intoClientRequest (crates.asStr url) key = some handshake ∧
      ∀ name, request.values name = if headers.values name = [] then handshake.values name
        else (headers.values name).getLast?.toList := by
  unfold websocketRequestForUrl at prepared
  split at prepared
  case h_1 => cases prepared
  case h_2 handshake isHandshake =>
    cases prepared
    exact ⟨handshake, isHandshake, fun name => HeaderMap.values_foldl_insert handshake name _⟩

theorem values_prepared (documented : Documented crates) (notHandshake : name ∉ handshakeNames)
    (prepared : websocketRequestForUrl crates url key headers = .ok request) :
    request.values name = (headers.values name).getLast?.toList := by
  rcases websocketRequestForUrl_eq_ok prepared with ⟨handshake, isHandshake, valuesEq⟩
  rw [valuesEq]
  split
  case isTrue absent =>
    have noneNew : handshake.values name = [] := by
      by_contra someValue
      exact notHandshake (documented.handshake _ _ _ isHandshake name someValue)
    rw [noneNew, absent]
    rfl
  case isFalse => rfl

theorem withoutCredentials_of_prepared (documented : Documented crates)
    (absent : ∀ name ∈ [cookieName, authorizationName, hostName], headers.values name = [])
    (prepared : websocketRequestForUrl crates url key headers = .ok request) :
    WithoutCredentials crates url request := by
  rcases websocketRequestForUrl_eq_ok prepared with ⟨handshake, isHandshake, valuesEq⟩
  refine ⟨?_, ?_, key, handshake, isHandshake, ?_⟩
  · rw [values_prepared documented (by decide) prepared, absent _ (by simp)]
    rfl
  · rw [values_prepared documented (by decide) prepared, absent _ (by simp)]
    rfl
  · rw [valuesEq, if_pos (absent _ (by simp))]

theorem WithoutCredentials.forwarded (without : WithoutCredentials crates url request)
    (isSent : forwardedRequest crates request forwardProxy = .ok sent) :
    WithoutCredentials crates url sent := by
  rcases without with ⟨noAuthorization, noCookie, key, handshake, isHandshake, hostEq⟩
  refine ⟨?_, ?_, key, handshake, isHandshake, ?_⟩
  · rw [values_forwardedRequest isSent (by decide) (by decide), noAuthorization]
  · rw [values_forwardedRequest isSent (by decide) (by decide), noCookie]
  · rw [values_forwardedRequest isSent (by decide) (by decide), hostEq]

theorem carriedHeaders_of_otherOrigin (headers : HeaderMap)
    (otherOrigin : ¬ websocketSameOrigin crates url next = true) :
    ∀ name ∈ [cookieName, authorizationName, hostName],
      (carriedHeaders crates url next headers).values name = [] := by
  intro name isCredential
  rw [values_carriedHeaders, if_neg]
  rintro (sameOrigin | notCredential)
  · exact otherOrigin sameOrigin
  · exact notCredential isCredential

theorem websocketSameOrigin_iff :
    websocketSameOrigin crates url next = true ↔ origin crates url = origin crates next := by
  simp [websocketSameOrigin, origin]

/-- Credentials reach a place only if no place before it had another origin. -/
theorem credentials_of_connectLoop (documented : Documented crates)
    (isWebSocket : isWebSocketScheme (crates.scheme url) = true) {k : ℕ} {attempt : Attempt Url}
    (attemptAt_k : (connectLoop crates transport hops url headers request followed).1[k]? =
      some attempt) (isSent : attempt.sent = some sent) :
    WithoutCredentials crates attempt.url sent ∨ ∀ j ≤ k, ∀ earlier,
      (connectLoop crates transport hops url headers request followed).1[j]? = some earlier →
      origin crates earlier.url = origin crates url := by
  induction hops generalizing url headers request followed k with
  | nil => simp [connectLoop] at attemptAt_k
  | cons hop hops ih =>
      rcases connectLoop_cons transport hop hops headers request followed documented isWebSocket
        with ⟨alone, _⟩ | ⟨next, carried, prepared, follows, more⟩
      · right
        intro j _ earlier earlierEq
        rw [alone, List.getElem?_singleton] at earlierEq
        split at earlierEq
        · cases earlierEq
          rfl
        · cases earlierEq
      · rw [more] at attemptAt_k ⊢
        cases k with
        | zero =>
            right
            intro j isFirst earlier earlierEq
            rw [Nat.le_zero] at isFirst
            subst isFirst
            cases earlierEq
            rfl
        | succ k =>
            rw [List.getElem?_cons_succ] at attemptAt_k
            by_cases sameOrigin : websocketSameOrigin crates url next = true
            · refine (ih follows.isWebSocket attemptAt_k).imp id ?_
              intro allSame j atMost earlier earlierEq
              cases j with
              | zero =>
                  cases earlierEq
                  rfl
              | succ j =>
                  rw [List.getElem?_cons_succ] at earlierEq
                  rw [allSame j (by omega) earlier earlierEq]
                  exact (websocketSameOrigin_iff.mp sameOrigin).symm
            · left
              have absent := carriedHeaders_of_otherOrigin headers sameOrigin
              rw [← follows.carries] at absent
              rcases ready_of_mem_connectLoop _ (WithoutCredentials crates) documented
                (fun fit name isCredential => values_carriedHeaders_eq_nil (fit name isCredential))
                (fun fit isPrepared => withoutCredentials_of_prepared documented fit isPrepared)
                follows.isWebSocket absent
                (withoutCredentials_of_prepared documented absent follows.prepared)
                (List.mem_of_getElem? attemptAt_k) with ⟨_, ready, hop, without, attemptEq⟩
              rw [attemptEq] at isSent
              have forwarded := forwardedRequest_of_attemptAt isSent
              exact without.forwarded forwarded

/-- The headers that a place gets: without an authorization for a proxy, and of every header of the
user the last value that is carried. -/
theorem values_of_connectLoop (documented : Documented crates)
    (isWebSocket : isWebSocketScheme (crates.scheme url) = true)
    (noAuthorization : headers.values proxyAuthorizationName = [])
    (prepared : websocketRequestForUrl crates url key headers = .ok request) :
    ∀ attempt ∈ (connectLoop crates transport hops url headers request followed).1,
      ∀ sent, attempt.sent = some sent →
        sent.values proxyAuthorizationName =
            derivedAuthorization crates attempt.forwardProxy ∧
          ∀ name, IsCustom name →
            sent.values name = (headers.values name).getLast?.toList := by
  intro attempt attemptMem sent isSent
  refine ⟨?_, ?_⟩
  · have notHandshake : proxyAuthorizationName ∉ handshakeNames := by decide
    have ready := values_prepared documented notHandshake prepared
    rw [noAuthorization] at ready
    rcases ready_of_mem_connectLoop (fun headers => headers.values proxyAuthorizationName = [])
      (fun _ request => request.values proxyAuthorizationName = []) documented
      (fun fit => values_carriedHeaders_eq_nil fit)
      (fun fit isPrepared => by
        rw [values_prepared documented notHandshake isPrepared, fit]
        rfl)
      isWebSocket noAuthorization ready attemptMem with ⟨_, request, hop, noneReady, attemptEq⟩
    rw [attemptEq] at isSent ⊢
    exact values_proxyAuthorization (forwardedRequest_of_attemptAt isSent) noneReady
  · intro name isCustom
    simp only [IsCustom, List.mem_append, List.mem_cons, List.not_mem_nil, or_false, not_or]
      at isCustom
    rcases isCustom with ⟨notHandshake, notAuthorization, notCookie, notProxyAuthorization,
      notProxyConnection⟩
    have notHost : name ≠ hostName := by
      rintro rfl
      exact notHandshake (by decide)
    rcases ready_of_mem_connectLoop (fun other => other.values name = headers.values name)
      (fun _ request => request.values name = (headers.values name).getLast?.toList)
      documented
      (fun fit => by
        rw [values_carriedHeaders, if_pos, fit]
        simp [notCookie, notAuthorization, notHost])
      (fun fit isPrepared => by rw [values_prepared documented notHandshake isPrepared, fit])
      isWebSocket rfl (values_prepared documented notHandshake prepared) attemptMem with
      ⟨_, request, hop, isReady, attemptEq⟩
    rw [attemptEq] at isSent
    rw [values_forwardedRequest (forwardedRequest_of_attemptAt isSent) notProxyAuthorization
      notProxyConnection, isReady]

theorem length_connectLoop_le (documented : Documented crates)
    (isWebSocket : isWebSocketScheme (crates.scheme url) = true)
    (bounded : 0 ≤ transport.maxRedirects)
    (within : followed ≤ min transport.maxRedirects.toNat usizeMax) :
    (connectLoop crates transport hops url headers request followed).1.length + followed ≤
      min transport.maxRedirects.toNat usizeMax + 1 := by
  induction hops generalizing url headers request followed with
  | nil =>
      simp only [connectLoop, List.length_nil]
      omega
  | cons hop hops ih =>
      rcases connectLoop_cons transport hop hops headers request followed documented isWebSocket
        with ⟨alone, _⟩ | ⟨next, carried, prepared, follows, more⟩
      · rw [alone, List.length_singleton]
        omega
      · have allowed := follows.allowed
        simp only [websocketRedirectAllowed, Bool.decide_and, Bool.decide_or, Bool.and_eq_true,
          decide_eq_true_eq, Bool.or_eq_true] at allowed
        have room : followed < min transport.maxRedirects.toNat usizeMax := by omega
        have one : min (followed + 1) usizeMax = followed + 1 := by omega
        rw [more, one, List.length_cons]
        have rest := @ih prepared carried next (followed + 1) follows.isWebSocket (by omega)
        omega

/-! ## Whole handshakes -/

section Whole

variable (crates request transport) (requestUrl : Text) (hops : List (Hop Url))

/-- The places that a handshake contacts. -/
def attempts : List (Attempt Url) :=
  (connectNativeWebSocket crates request transport requestUrl hops).1

/-- Credentials stay at the first origin, other headers are carried, and redirects are bounded. -/
structure RedirectsSafely : Prop where
  credentials : ∀ start, crates.parse requestUrl = some start →
    ∀ (k : ℕ) (attempt : Attempt Url) (sent : HeaderMap),
    (attempts crates request transport requestUrl hops)[k]? = some attempt →
    attempt.sent = some sent →
    WithoutCredentials crates attempt.url sent ∨ ∀ j ≤ k, ∀ earlier : Attempt Url,
      (attempts crates request transport requestUrl hops)[j]? = some earlier →
      origin crates earlier.url = origin crates start
  proxyAuthorization : ∀ (k : ℕ) (attempt : Attempt Url) (sent : HeaderMap), 0 < k →
    (attempts crates request transport requestUrl hops)[k]? = some attempt →
    attempt.sent = some sent →
    sent.values proxyAuthorizationName = derivedAuthorization crates attempt.forwardProxy
  custom : ∀ attempt ∈ attempts crates request transport requestUrl hops, ∀ sent,
    attempt.sent = some sent → ∀ name, IsCustom name →
    sent.values name = request.values name
  limit : 0 ≤ transport.maxRedirects →
    ((attempts crates request transport requestUrl hops).length : ℤ) ≤
      transport.maxRedirects + 1
  single : transport.followRedirects = false → ∀ start, crates.parse requestUrl = some start →
    isWebSocketScheme (crates.scheme start) = true → hops ≠ [] →
    (attempts crates request transport requestUrl hops).length = 1
  schemes : ∀ attempt ∈ attempts crates request transport requestUrl hops,
    isWebSocketScheme (crates.scheme attempt.url) = true

/-- The first place redirects to a second one, where a request can be sent. -/
def SendsAgain : Prop :=
  ∃ start first second rest response next handshake,
    crates.parse requestUrl = some start ∧ isWebSocketScheme (crates.scheme start) = true ∧
    hops = first :: second :: rest ∧ first.Sends crates ∧ second.Sends crates ∧
    first.answer = .http response ∧ isRedirection response = true ∧
    websocketRedirectAllowed transport 0 = true ∧
    websocketRedirectUrl crates start response = .ok next ∧
    crates.intoClientRequest (crates.asStr next) first.nextKey = some handshake

end Whole

variable {requestUrl : Text} {start : Url}

theorem attempts_eq (parsed : crates.parse requestUrl = some start)
    (isWebSocket : isWebSocketScheme (crates.scheme start) = true) :
    attempts crates request transport requestUrl hops =
      (connectLoop crates transport hops start (websocketRedirectHeaders request) request 0).1 := by
  unfold attempts connectNativeWebSocket
  rw [parsed]
  simp only [isWebSocket, if_true]

theorem attempts_eq_nil
    (noStart : ∀ start, crates.parse requestUrl = some start →
      ¬ isWebSocketScheme (crates.scheme start) = true) :
    attempts crates request transport requestUrl hops = [] := by
  unfold attempts connectNativeWebSocket
  cases parsed : crates.parse requestUrl with
  | none => rfl
  | some start =>
      simp only [if_neg (noStart start parsed)]

theorem values_websocketRedirectHeaders (isCustom : IsCustom name) :
    (websocketRedirectHeaders request).values name = request.values name := by
  unfold websocketRedirectHeaders
  rw [values_foldl_remove, if_neg]
  have allKnown : [connectionName, upgradeName, keyName, versionName, proxyAuthorizationName,
      proxyConnectionName] ⊆ handshakeNames ++
        [authorizationName, cookieName, proxyAuthorizationName, proxyConnectionName] := by
    simp [handshakeNames]
  exact fun removed => isCustom (allKnown removed)

theorem getLast?_toList_eq_self_iff {Value : Type} {values : List Value} :
    values.getLast?.toList = values ↔ values.length ≤ 1 := by
  rcases List.eq_nil_or_concat values with rfl | ⟨init, last, rfl⟩
  · simp
  · rw [List.concat_eq_append, List.getLast?_concat, Option.toList_some, List.self_eq_append_left,
      List.length_append, List.length_singleton]
    cases init <;> simp

theorem not_follows_of_disabled {carried prepared : HeaderMap}
    (disabled : transport.followRedirects = false) :
    ¬ Follows crates transport url headers followed hop next carried prepared := by
  rintro ⟨_, _, allowed, _, _⟩
  simp [websocketRedirectAllowed, disabled] at allowed

/-- Everything but the values of repeated headers is as it should be. -/
theorem redirectsSafely_iff_custom (documented : Documented crates) :
    RedirectsSafely crates request transport requestUrl hops ↔
      ∀ attempt ∈ attempts crates request transport requestUrl hops, ∀ sent,
        attempt.sent = some sent → ∀ name, IsCustom name →
        sent.values name = request.values name := by
  refine ⟨fun safely => safely.custom, fun custom => ?_⟩
  by_cases starts : ∃ start, crates.parse requestUrl = some start ∧
      isWebSocketScheme (crates.scheme start) = true
  · rcases starts with ⟨start, parsed, isWebSocket⟩
    have attemptsEq := @attempts_eq _ crates request transport hops requestUrl start parsed
      isWebSocket
    refine ⟨?_, ?_, custom, ?_, ?_, ?_⟩
    · intro other otherParsed k attempt sent attemptEq isSent
      rw [parsed] at otherParsed
      cases otherParsed
      rw [attemptsEq] at attemptEq ⊢
      exact credentials_of_connectLoop documented isWebSocket attemptEq isSent
    · intro k attempt sent later attemptEq isSent
      rw [attemptsEq] at attemptEq
      cases hops with
      | nil => simp [connectLoop] at attemptEq
      | cons hop hops =>
          rcases Nat.exists_eq_succ_of_ne_zero (Nat.ne_of_gt later) with ⟨before, rfl⟩
          rcases connectLoop_cons transport hop hops (websocketRedirectHeaders request) request 0
            documented isWebSocket with ⟨alone, _⟩ | ⟨next, carried, prepared, follows, more⟩
          · simp [alone] at attemptEq
          · rw [more, List.getElem?_cons_succ] at attemptEq
            have noAuthorization : carried.values proxyAuthorizationName = [] := by
              rw [follows.carries]
              apply values_carriedHeaders_eq_nil
              unfold websocketRedirectHeaders
              rw [values_foldl_remove, if_pos (by decide)]
            exact (values_of_connectLoop documented follows.isWebSocket noAuthorization
              follows.prepared attempt (List.mem_of_getElem? attemptEq) sent isSent).1
    · intro bounded
      rw [attemptsEq]
      have limit := @length_connectLoop_le _ crates request (websocketRedirectHeaders request)
        start 0 transport hops documented isWebSocket bounded (Nat.zero_le _)
      omega
    · intro disabled other otherParsed _ someHop
      rw [attemptsEq]
      rcases List.exists_cons_of_ne_nil someHop with ⟨hop, rest, rfl⟩
      rcases connectLoop_cons transport hop rest (websocketRedirectHeaders request) request 0
        documented isWebSocket with ⟨alone, _⟩ | ⟨next, carried, prepared, follows, _⟩
      · rw [alone, List.length_singleton]
      · exact absurd follows (not_follows_of_disabled disabled)
    · intro attempt attemptMem
      rw [attemptsEq] at attemptMem
      exact (ready_of_mem_connectLoop (fun _ => True) (fun _ _ => True) documented
        (fun _ => trivial) (fun _ _ => trivial) isWebSocket trivial trivial attemptMem).1
  · have none : attempts crates request transport requestUrl hops = [] :=
      attempts_eq_nil fun start parsed isWebSocket => starts ⟨start, parsed, isWebSocket⟩
    refine ⟨?_, ?_, custom, ?_, ?_, ?_⟩
    · simp [none]
    · simp [none]
    · rw [none, List.length_nil]
      omega
    · intro _ start parsed isWebSocket
      exact absurd ⟨start, parsed, isWebSocket⟩ starts
    · simp [none]

theorem values_carried (isCustom : IsCustom name) :
    (carriedHeaders crates url next (websocketRedirectHeaders request)).values name =
      request.values name := by
  rw [values_carriedHeaders, if_pos, values_websocketRedirectHeaders isCustom]
  right
  have allKnown : [cookieName, authorizationName, hostName] ⊆ handshakeNames ++
      [authorizationName, cookieName, proxyAuthorizationName, proxyConnectionName] := by
    simp [handshakeNames]
  exact fun isCredential => isCustom (allKnown isCredential)

/-- Behind the first place only the last value of a header is left. -/
theorem values_behind_first {prepared : HeaderMap} (documented : Documented crates)
    (follows : Follows crates transport url (websocketRedirectHeaders request) followed hop next
      carried prepared) {attempt : Attempt Url} {n : ℕ}
    (attemptMem : attempt ∈ (connectLoop crates transport hops next carried prepared n).1)
    (isSent : attempt.sent = some sent) (isCustom : IsCustom name) :
    sent.values name = (request.values name).getLast?.toList := by
  have noAuthorization : carried.values proxyAuthorizationName = [] := by
    rw [follows.carries]
    apply values_carriedHeaders_eq_nil
    unfold websocketRedirectHeaders
    rw [values_foldl_remove, if_pos (by decide)]
  have last := (values_of_connectLoop documented follows.isWebSocket noAuthorization
    follows.prepared attempt attemptMem sent isSent).2 name isCustom
  rw [last, follows.carries, values_carried isCustom]

theorem values_of_first (isSent : (attemptAt crates request url hop).sent = some sent)
    (isCustom : IsCustom name) : sent.values name = request.values name := by
  simp only [IsCustom, List.mem_append, List.mem_cons, List.not_mem_nil, or_false, not_or]
    at isCustom
  exact values_forwardedRequest (forwardedRequest_of_attemptAt isSent) isCustom.2.2.2.1
    isCustom.2.2.2.2

theorem sends_of_later {second : Hop Url} (documented : Documented crates)
    (isWebSocket : isWebSocketScheme (crates.scheme url) = true) {attempt : Attempt Url}
    (attemptMem : attempt ∈
      (connectLoop crates transport (second :: hops) url headers request followed).1)
    (isSent : attempt.sent = some sent) : second.Sends crates := by
  rcases connectLoop_cons transport second hops headers request followed documented isWebSocket
    with ⟨alone, _⟩ | ⟨_, _, _, follows, _⟩
  · rw [alone, List.mem_singleton] at attemptMem
    subst attemptMem
    exact attemptAt_sent_isSome.mp (Option.isSome_of_eq_some isSent)
  · exact follows.sends

theorem sendsAgain_of_follows {first : Hop Url} {prepared : HeaderMap} {n : ℕ}
    (documented : Documented crates) (parsed : crates.parse requestUrl = some start)
    (isWebSocket : isWebSocketScheme (crates.scheme start) = true)
    (follows : Follows crates transport start headers 0 first next carried prepared)
    {attempt : Attempt Url}
    (attemptMem : attempt ∈ (connectLoop crates transport hops next carried prepared n).1)
    (isSent : attempt.sent = some sent) :
    SendsAgain crates transport requestUrl (first :: hops) := by
  cases hops with
  | nil => simp [connectLoop] at attemptMem
  | cons second rest =>
      rcases follows.redirects with ⟨response, isAnswer, isRedirect, urlEq⟩
      rcases websocketRequestForUrl_eq_ok follows.prepared with ⟨handshake, isHandshake, _⟩
      exact ⟨start, first, second, rest, response, next, handshake, parsed, isWebSocket, rfl,
        follows.sends, sends_of_later documented follows.isWebSocket attemptMem isSent, isAnswer,
        isRedirect, follows.allowed, urlEq, isHandshake⟩

theorem follows_of_sendsAgain (again : SendsAgain crates transport requestUrl hops)
    (headers : HeaderMap) :
    ∃ start first second rest next carried prepared, crates.parse requestUrl = some start ∧
      isWebSocketScheme (crates.scheme start) = true ∧ hops = first :: second :: rest ∧
      second.Sends crates ∧
      Follows crates transport start headers 0 first next carried prepared := by
  rcases again with ⟨start, first, second, rest, response, next, handshake, parsed, isWebSocket,
    rfl, firstSends, secondSends, isAnswer, isRedirect, allowed, urlEq, isHandshake⟩
  have prepared : ∃ prepared, websocketRequestForUrl crates next first.nextKey
      (carriedHeaders crates start next headers) = .ok prepared := by
    unfold websocketRequestForUrl
    rw [isHandshake]
    exact ⟨_, rfl⟩
  rcases prepared with ⟨prepared, isPrepared⟩
  exact ⟨start, first, second, rest, next, _, prepared, parsed, isWebSocket, rfl, secondSends,
    firstSends, ⟨response, isAnswer, isRedirect, urlEq⟩, allowed, rfl, isPrepared⟩

/-- Handshakes are redirected safely just if no header of the user is repeated or no second request
is sent. -/
theorem redirectsSafely_iff (documented : Documented crates) :
    RedirectsSafely crates request transport requestUrl hops ↔
      (∀ name, IsCustom name → (request.values name).length ≤ 1) ∨
        ¬ SendsAgain crates transport requestUrl hops := by
  rw [redirectsSafely_iff_custom documented]
  constructor
  · intro custom
    rw [or_iff_not_imp_right, not_not]
    intro again name isCustom
    rcases follows_of_sendsAgain again (websocketRedirectHeaders request) with
      ⟨start, first, second, rest, _, _, _, parsed, isWebSocket, rfl, secondSends, redirected⟩
    rw [attempts_eq parsed isWebSocket] at custom
    rcases connectLoop_cons transport first (second :: rest) (websocketRedirectHeaders request)
      request 0 documented isWebSocket with ⟨_, none⟩ | ⟨next, carried, prepared, follows, more⟩
    · exact absurd redirected (none _ _ _)
    · rcases Option.isSome_iff_exists.mp (attemptAt_sent_isSome.mpr secondSends) with
        ⟨sent, isSent⟩
      have secondMem : attemptAt crates prepared next second ∈ (connectLoop crates transport
          (second :: rest) next carried prepared (min (0 + 1) usizeMax)).1 := by
        rcases connectLoop_cons transport second rest carried prepared (min (0 + 1) usizeMax)
          documented follows.isWebSocket with ⟨alone, _⟩ | ⟨_, _, _, _, later⟩
        · rw [alone]
          exact List.mem_singleton_self _
        · rw [later]
          exact List.mem_cons_self
      rw [more] at custom
      have kept := custom _ (List.mem_cons_of_mem _ secondMem) sent isSent name isCustom
      rw [values_behind_first documented follows secondMem isSent isCustom] at kept
      exact getLast?_toList_eq_self_iff.mp kept
  · intro condition attempt attemptMem sent isSent name isCustom
    by_cases starts : ∃ start, crates.parse requestUrl = some start ∧
        isWebSocketScheme (crates.scheme start) = true
    · rcases starts with ⟨start, parsed, isWebSocket⟩
      rw [attempts_eq parsed isWebSocket] at attemptMem
      cases hops with
      | nil => simp [connectLoop] at attemptMem
      | cons first hops =>
          rcases connectLoop_cons transport first hops (websocketRedirectHeaders request) request 0
            documented isWebSocket with ⟨alone, _⟩ | ⟨next, carried, prepared, follows, more⟩
          · rw [alone, List.mem_singleton] at attemptMem
            subst attemptMem
            exact values_of_first isSent isCustom
          · rw [more, List.mem_cons] at attemptMem
            rcases attemptMem with rfl | later
            · exact values_of_first isSent isCustom
            · rw [values_behind_first documented follows later isSent isCustom,
                getLast?_toList_eq_self_iff]
              rcases condition with noneRepeated | once
              · exact noneRepeated name isCustom
              · exact absurd
                  (sendsAgain_of_follows documented parsed isWebSocket follows later isSent) once
    · have none : attempts crates request transport requestUrl hops = [] :=
        attempts_eq_nil fun start parsed isWebSocket => starts ⟨start, parsed, isWebSocket⟩
      rw [none] at attemptMem
      cases attemptMem

end Safety

/-! ## A redirect -/

/-- The URLs of one host whose path is a name in lower case. -/
abbrev HostUrl := { name : Text // name.all Char.isLower }

def hostUrl (name : Text) : Option HostUrl :=
  if plain : name.all Char.isLower then some ⟨name, plain⟩ else none

def hostPrefix : Text := "ws://h/".toList

def hostHandshake (key : Text) : HeaderMap :=
  [(hostName, ['h']), (connectionName, "Upgrade".toList), (upgradeName, "websocket".toList),
    (versionName, "13".toList), (keyName, key)]

/-- Crates that know these URLs, and the names that are relative to them. -/
def hostCrates : Crates HostUrl where
  parse text :=
    if hostPrefix.isPrefixOf text then hostUrl (text.drop hostPrefix.length) else none
  join url location := if location = [] then some url else hostUrl location
  asStr url := hostPrefix ++ url.1
  scheme _ := ['w', 's']
  hostStr _ := some ['h']
  portOrKnownDefault _ := some 80
  username _ := []
  password _ := none
  intoClientRequest text key :=
    if hostPrefix.isPrefixOf text then some (hostHandshake key) else none
  base64 _ := []

theorem hostCrates_documented : Documented hostCrates := by
  refine ⟨fun url => ?_, ?_⟩
  · simp only [hostCrates, List.isPrefixOf_iff_prefix.mpr (List.prefix_append _ _), if_true,
      List.drop_left]
    exact dif_pos url.2
  · intro text key headers isHandshake name someValue
    have same : hostHandshake key = headers := by
      simp only [hostCrates] at isHandshake
      split at isHandshake
      · exact Option.some_inj.mp isHandshake
      · simp at isHandshake
    rw [← same] at someValue
    by_contra notHandshake
    simp only [handshakeNames, List.mem_cons, List.not_mem_nil, or_false, not_or] at notHandshake
    rcases notHandshake with ⟨notHost, notConnection, notUpgrade, notKey, notVersion⟩
    apply someValue
    simp [hostHandshake, HeaderMap.values, Ne.symm notHost, Ne.symm notConnection,
      Ne.symm notUpgrade, Ne.symm notKey, Ne.symm notVersion]

/-- A request with credentials and values of one more header. -/
def hostRequest (values : List Text) : HeaderMap :=
  hostHandshake "Zmlyc3Q=".toList ++ (authorizationName, "Bearer t".toList) ::
    values.map fun value => (['x'], value)

/-- A redirect to another path, and then the connection. -/
def redirectHops : List (Hop HostUrl) :=
  [⟨.ok none, .http ⟨302, some (some ['b'])⟩, "c2Vjb25k".toList⟩, ⟨.ok none, .connected, []⟩]

theorem redirectsSafely_iff_redirectHops :
    RedirectsSafely hostCrates (hostRequest [['1']]) ⟨true, 10⟩ "ws://h/a".toList redirectHops ↔
      (∀ name, IsCustom name → (HeaderMap.values (hostRequest [['1']]) name).length ≤ 1) ∨
        ¬ SendsAgain hostCrates ⟨true, 10⟩ "ws://h/a".toList redirectHops :=
  redirectsSafely_iff hostCrates_documented

/-- Of two values of a header the redirected request has one. -/
theorem redirect_drops_value :
    ¬ RedirectsSafely hostCrates (hostRequest [['1'], ['2']]) ⟨true, 10⟩ "ws://h/a".toList
      redirectHops := by
  intro safely
  have second : (attempts hostCrates (hostRequest [['1'], ['2']]) ⟨true, 10⟩ "ws://h/a".toList
      redirectHops)[1]? = some ⟨⟨['b'], rfl⟩, none, some (
        [(connectionName, "Upgrade".toList), (upgradeName, "websocket".toList),
          (versionName, "13".toList), (keyName, "c2Vjb25k".toList), (hostName, ['h']),
          (authorizationName, "Bearer t".toList), (['x'], ['2'])])⟩ := by
    rfl
  have isCustom : IsCustom ['x'] := by
    unfold IsCustom
    decide
  have kept := safely.custom _ (List.mem_of_getElem? second) _ rfl _ isCustom
  revert kept
  decide

end Brunomnia.Streaming.Redirects
