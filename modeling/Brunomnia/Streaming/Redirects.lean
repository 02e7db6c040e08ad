import Brunomnia.Codegen.Text
import Brunomnia.Multipart.Boundary

/-!
# Redirects of a WebSocket handshake

A handshake that is answered with a redirect is made again at the new place. The headers of the
request are carried along: those of the handshake are made anew, and credentials are dropped for
good as soon as a redirect leaves the origin.
-/

namespace Brunomnia.Streaming.Redirects

open Codegen (Text trimText lowerText)

/-! ## Headers -/

/-- The values of headers by name, names in lower case. A header may have several values; in which
order other headers stand between them is left open by the header map of the program. -/
abbrev HeaderMap := List (Text × Text)

namespace HeaderMap

def values (headers : HeaderMap) (name : Text) : List Text :=
  (headers.filter fun header => header.1 = name).map Prod.snd

def remove (headers : HeaderMap) (name : Text) : HeaderMap :=
  headers.filter fun header => header.1 ≠ name

def insert (headers : HeaderMap) (name value : Text) : HeaderMap :=
  headers.remove name ++ [(name, value)]

/-- `headers.entry(name).or_insert(value)` -/
def orInsert (headers : HeaderMap) (name value : Text) : HeaderMap :=
  if headers.values name = [] then headers ++ [(name, value)] else headers

end HeaderMap

def hostName : Text := "host".toList
def authorizationName : Text := "authorization".toList
def cookieName : Text := "cookie".toList
def connectionName : Text := "connection".toList
def upgradeName : Text := "upgrade".toList
def keyName : Text := "sec-websocket-key".toList
def versionName : Text := "sec-websocket-version".toList
def proxyAuthorizationName : Text := "proxy-authorization".toList
def proxyConnectionName : Text := "proxy-connection".toList

/-! ## What the program uses -/

/-- The crates that read and join URLs, make the headers of a handshake and encode credentials. -/
structure Crates (Url : Type) where
  parse : Text → Option Url
  join : Url → Text → Option Url
  asStr : Url → Text
  scheme : Url → Text
  hostStr : Url → Option Text
  portOrKnownDefault : Url → Option ℕ
  username : Url → Text
  password : Url → Option Text
  /-- `into_client_request`, with the key that it draws. -/
  intoClientRequest : Text → Text → Option HeaderMap
  base64 : List UInt8 → Text

structure TransportConfig where
  followRedirects : Bool
  maxRedirects : ℤ
  deriving DecidableEq

structure WebSocketResponse where
  status : ℕ
  /-- The first `Location` header, if there is one, and its text, if it can be read. -/
  location : Option (Option Text)
  deriving DecidableEq

/-- How the peer answers a handshake. -/
inductive Answer where
  | connected
  | http (response : WebSocketResponse)
  | failed (message : Text)
  deriving DecidableEq

/-- What happens at one place: the stream to it, with the proxy that requests are forwarded to, the
answer, and the key for a handshake at the next place. -/
structure Hop (Url : Type) where
  stream : Except Text (Option Url)
  answer : Answer
  nextKey : Text

/-- A place that was contacted and the request that was sent there, if it came to that. -/
structure Attempt (Url : Type) where
  url : Url
  forwardProxy : Option Url
  sent : Option HeaderMap

inductive ConnectError where
  | transport (message : Text)
  | http (response : WebSocketResponse)
  | handshake (message : Text)
  deriving DecidableEq

/-! ## Credentials of a proxy -/

def hexDigit (byte : UInt8) : Option ℕ :=
  if 48 ≤ byte ∧ byte ≤ 57 then some (byte.toNat - 48)
  else if 97 ≤ byte ∧ byte ≤ 102 then some (byte.toNat - 87)
  else if 65 ≤ byte ∧ byte ≤ 70 then some (byte.toNat - 55)
  else none

/-- `u8::from_str_radix(encoded, 16)` of two bytes; a plus sign may stand before one digit. -/
def fromHex (second third : UInt8) : Option UInt8 :=
  match hexDigit second, hexDigit third with
  | some high, some low => some (UInt8.ofNat (high * 16 + low))
  | none, some low => if second = 43 then some (UInt8.ofNat low) else none
  | _, none => none

/-- The loop over the bytes of a user name or password. -/
def decodeUserinfoBytes : List UInt8 → Option (List UInt8)
  | [] => some []
  | first :: rest =>
      if first = 37 then
        match rest with
        | second :: third :: rest =>
            match fromHex second third with
            | some byte => (decodeUserinfoBytes rest).map fun bytes => byte :: bytes
            | none => none
        | _ => none
      else (decodeUserinfoBytes rest).map fun bytes => first :: bytes

def decodeProxyUserinfo (value : Text) : Except Text Text :=
  match decodeUserinfoBytes (Multipart.utf8 value) with
  | none => .error "The proxy URL contains invalid percent encoding.".toList
  | some bytes =>
      match Multipart.fromUtf8 bytes with
      | none => .error "The proxy URL credentials must be UTF-8.".toList
      | some decoded =>
          if '\r' ∈ decoded ∨ '\n' ∈ decoded then
            .error "The proxy URL credentials contain invalid control characters.".toList
          else .ok decoded

section Connecting

variable {Url : Type} (crates : Crates Url)

def proxyAuthorization (proxy : Url) : Except Text (Option Text) := do
  let password := (crates.password proxy).getD []
  if crates.username proxy = [] ∧ password = [] then return none
  let username ← decodeProxyUserinfo (crates.username proxy)
  let password ← decodeProxyUserinfo password
  return some ("Basic ".toList ++
    crates.base64 (Multipart.utf8 (username ++ ':' :: password)))

/-! ## Redirects

The texts that the crates give to their own errors are left out of the messages. -/

def websocketRedirectHeaders (request : HeaderMap) : HeaderMap :=
  [connectionName, upgradeName, keyName, versionName, proxyAuthorizationName,
    proxyConnectionName].foldl HeaderMap.remove request

/-- The carried headers are set one by one over those of a new handshake. -/
def websocketRequestForUrl (url : Url) (key : Text) (headers : HeaderMap) :
    Except Text HeaderMap :=
  match crates.intoClientRequest (crates.asStr url) key with
  | none => .error "Invalid redirected WebSocket URL".toList
  | some request =>
      .ok (headers.foldl (fun request header => request.insert header.1 header.2) request)

def isWebSocketScheme (scheme : Text) : Bool :=
  scheme ∈ ["ws".toList, "wss".toList]

/-- `to_ascii_lowercase` maps the characters of a host one by one. -/
def origin (url : Url) : Text × Option Text × Option ℕ :=
  (crates.scheme url, (crates.hostStr url).map lowerText, crates.portOrKnownDefault url)

def websocketSameOrigin (left right : Url) : Bool :=
  crates.scheme left = crates.scheme right ∧
    (crates.hostStr left).map lowerText = (crates.hostStr right).map lowerText ∧
    crates.portOrKnownDefault left = crates.portOrKnownDefault right

def websocketRedirectUrl (current : Url) (response : WebSocketResponse) : Except Text Url :=
  match response.location with
  | none => .error ("WebSocket redirect HTTP ".toList ++ (toString response.status).toList ++
      " has no Location header.".toList)
  | some none => .error "The WebSocket redirect Location is not valid UTF-8.".toList
  | some (some location) =>
      match crates.join current location with
      | none => .error "Invalid WebSocket redirect Location".toList
      | some next =>
          if isWebSocketScheme (crates.scheme next) then .ok next
          else .error "WebSocket redirects must use WS or WSS.".toList

/-- `usize::MAX` -/
def usizeMax : ℕ := 2 ^ 64 - 1

def websocketRedirectAllowed (transport : TransportConfig) (followed : ℕ) : Bool :=
  transport.followRedirects ∧
    (transport.maxRedirects < 0 ∨ followed < min transport.maxRedirects.toNat usizeMax)

def isRedirection (response : WebSocketResponse) : Bool :=
  300 ≤ response.status ∧ response.status < 400

/-! ## Connecting -/

/-- The request as it is sent through a forward proxy. -/
def forwardedRequest (request : HeaderMap) : Option Url → Except Text HeaderMap
  | none => .ok request
  | some proxy => do
      let request := match ← proxyAuthorization crates proxy with
        | some authorization => request.insert proxyAuthorizationName authorization
        | none => request
      return request.orInsert proxyConnectionName "Keep-Alive".toList

/-- `connect_native_websocket_once(request, transport, request_url)`, with what it contacted. -/
def connectOnce (request : HeaderMap) (requestUrl : Text) (hop : Hop Url) :
    Option (Attempt Url) × Except ConnectError Unit :=
  match crates.parse requestUrl with
  | none => (none, .error (.transport "Invalid WebSocket URL".toList))
  | some target =>
      if isWebSocketScheme (crates.scheme target) then
        match hop.stream with
        | .error message => (some ⟨target, none, none⟩, .error (.transport message))
        | .ok forwardProxy =>
            match forwardedRequest crates request forwardProxy with
            | .error message => (some ⟨target, forwardProxy, none⟩, .error (.transport message))
            | .ok sent =>
                (some ⟨target, forwardProxy, some sent⟩,
                  match hop.answer with
                  | .connected => .ok ()
                  | .http response => .error (.http response)
                  | .failed message => .error (.handshake message))
      else (none, .error (.transport "WebSocket URLs must use WS or WSS.".toList))

def carriedHeaders (current next : Url) (headers : HeaderMap) : HeaderMap :=
  if websocketSameOrigin crates current next then headers
  else ((headers.remove hostName).remove authorizationName).remove cookieName

/-- What follows on an answer: a next place with the headers that are carried there and the request,
or the end of the handshake. -/
def afterAnswer (transport : TransportConfig) (current : Url) (headers : HeaderMap)
    (followed : ℕ) (key : Text) :
    Except ConnectError Unit → Except (Except Text Unit) (Url × HeaderMap × HeaderMap)
  | .ok () => .error (.ok ())
  | .error (.transport message) => .error (.error message)
  | .error (.handshake message) => .error (.error message)
  | .error (.http response) =>
      if isRedirection response then
        if websocketRedirectAllowed transport followed then
          match websocketRedirectUrl crates current response with
          | .error message => .error (.error message)
          | .ok next =>
              let headers := carriedHeaders crates current next headers
              match websocketRequestForUrl crates next key headers with
              | .error message => .error (.error message)
              | .ok request => .ok (next, headers, request)
        else if transport.followRedirects then
          .error (.error ("WebSocket redirect limit of ".toList ++
            (toString transport.maxRedirects).toList ++ " was exceeded.".toList))
        else
          .error (.error ("WebSocket redirect HTTP ".toList ++
            (toString response.status).toList ++
            " was not followed because redirects are disabled.".toList))
      else .error (.error ("HTTP error: ".toList ++ (toString response.status).toList))

/-- The loop, as long as there are answers: the attempts, and the result once there is one. -/
def connectLoop (transport : TransportConfig) :
    List (Hop Url) → Url → HeaderMap → HeaderMap → ℕ →
      List (Attempt Url) × Option (Except Text Unit)
  | [], _, _, _, _ => ([], none)
  | hop :: hops, current, headers, request, followed =>
      let (attempt, answer) := connectOnce crates request (crates.asStr current) hop
      match afterAnswer crates transport current headers followed hop.nextKey answer with
      | .error result => (attempt.toList, some result)
      | .ok (next, headers, request) =>
          let (attempts, result) := connectLoop transport hops next headers request
            (min (followed + 1) usizeMax)
          (attempt.toList ++ attempts, result)

/-- `connect_native_websocket(request, transport, request_url)` -/
def connectNativeWebSocket (request : HeaderMap) (transport : TransportConfig)
    (requestUrl : Text) (hops : List (Hop Url)) :
    List (Attempt Url) × Option (Except Text Unit) :=
  match crates.parse requestUrl with
  | none => ([], some (.error "Invalid WebSocket URL".toList))
  | some start =>
      if isWebSocketScheme (crates.scheme start) then
        connectLoop crates transport hops start (websocketRedirectHeaders request) request 0
      else ([], some (.error "WebSocket URLs must use WS or WSS.".toList))

end Connecting

end Brunomnia.Streaming.Redirects
