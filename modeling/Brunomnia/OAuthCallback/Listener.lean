import Brunomnia.Library.Stores
import Brunomnia.Multipart.Boundary
import Brunomnia.Multipart.Parser

/-!
# The listener for OAuth callbacks

The system browser is redirected to a port of this machine, where the listener takes one
connection after the other until one carries the callback. How URLs and forms are parsed is a
parameter, since the parser is a package.
-/

namespace Brunomnia.OAuthCallback

open Codegen (Text)
open Library Multipart
open Streaming (textLines)

def maxUrlBytes : ℕ := 8192

def maxRequestBytes : ℕ := 16384

/-! ## URLs -/

structure Url where
  scheme : Text
  username : Text
  password : Option Text
  host : Option Text
  port : Option ℕ
  path : Text
  query : Option Text
  fragment : Option Text
  deriving DecidableEq

/-- `Url::parse` and `form_urlencoded::parse`. -/
structure UrlParser where
  parse : Text → Option Url
  form : Text → List (Text × Text)

variable (parser : UrlParser)

abbrev Parameters := Store Text Text

def Url.queryPairs (url : Url) : List (Text × Text) :=
  match url.query with
  | some query => parser.form query
  | none => []

/-- Collect pairs into a map; a later pair replaces an earlier one. -/
def extend (parameters : Parameters) (pairs : List (Text × Text)) : Parameters :=
  pairs.foldl (fun parameters pair => parameters.write pair.1 pair.2) parameters

def urlParameters (url : Url) : Parameters :=
  let parameters := extend .empty (url.queryPairs parser)
  match url.fragment with
  | some fragment => extend parameters (parser.form fragment)
  | none => parameters

def hasOauthResponse (parameters : Parameters) : Bool :=
  ["code", "access_token", "id_token", "error"].any fun name =>
    (parameters.read name.toList).isSome

def redirectTargetMatches (expected current : Url) : Bool :=
  if expected.scheme ≠ current.scheme ∨ expected.username ≠ current.username ∨
      expected.password ≠ current.password ∨ expected.host ≠ current.host ∨
      expected.port ≠ current.port ∨ expected.path ≠ current.path then
    false
  else
    (expected.queryPairs parser).all fun expectedPair =>
      (current.queryPairs parser).any fun pair => pair = expectedPair

def redirectParameters (expected current : Url) : Option Parameters :=
  if ¬ redirectTargetMatches parser expected current then none
  else
    let parameters := urlParameters parser current
    if hasOauthResponse parameters then some parameters else none

def checkedRedirectParameters (expected current : Url) (expectedState : Text) :
    Option (Except String Parameters) :=
  (redirectParameters parser expected current).map fun parameters =>
    if parameters.read "state".toList ≠ some expectedState then
      .error "OAuth callback state did not match this authorization attempt."
    else .ok parameters

/-! ## A connection -/

/-- What a read of the stream gives. -/
inductive Read where
  | data (chunk : List UInt8)
  | failed (error : String)
  | timedOut

/-- The page that answers a connection. -/
structure Page where
  status : String
  title : String
  message : String
  bridgeFragment : Bool

/-- A connection, by what its reads give and how the write of a page ends. A peer that
disconnects is read as an empty chunk, and one that is silent times out. -/
structure Connection where
  reads : List Read
  sendPage : Page → Except String Unit

def endOfHead : List UInt8 := [13, 10, 13, 10]

def hasHead (request : List UInt8) : Bool :=
  decide (endOfHead <:+: request)

/-- The loop of `read_target`. -/
def readRequest : List Read → List UInt8 → Except String (List UInt8)
  | [], request =>
      if request.length ≥ maxRequestBytes then .ok request
      else .error "The OAuth callback request timed out."
  | read :: rest, request =>
      if request.length ≥ maxRequestBytes then .ok request
      else
        match read with
        | .timedOut => .error "The OAuth callback request timed out."
        | .failed error => .error error
        | .data chunk =>
            if chunk = [] then .ok request
            else if hasHead (request ++ chunk) then .ok (request ++ chunk)
            else readRequest rest (request ++ chunk)

/-- `split_whitespace` -/
def splitWhitespace (text : Text) : List Text :=
  (text.splitOnP isRustWhitespace).filter (· ≠ [])

def requestLine (request : List UInt8) : Except String (List Text) :=
  if request.length ≥ maxRequestBytes then
    .error "The OAuth callback request exceeded 16 KiB."
  else
    match fromUtf8 request with
    | none => .error "The OAuth callback request was not valid UTF-8."
    | some text =>
        match (textLines text).head? with
        | none => .error "The OAuth callback request was empty."
        | some line => .ok (splitWhitespace line)

def targetOf : List Text → Except String Text
  | method :: rest =>
      if method ≠ "GET".toList then .error "The OAuth callback accepts only GET requests."
      else
        match rest with
        | [] => .error "The OAuth callback target was missing."
        | target :: _ =>
            if target.head? ≠ some '/' ∨ (utf8 target).length > maxUrlBytes then
              .error "The OAuth callback target was invalid."
            else .ok target
  | [] => .error "The OAuth callback accepts only GET requests."

def readTarget (connection : Connection) : Except String Text := do
  let request ← readRequest connection.reads []
  let line ← requestLine request
  targetOf line

/-! ## The loop -/

structure PreparedCallback where
  callbackPath : Text
  expectedState : Text
  responseType : Text

def invalidPage (error : String) : Page :=
  ⟨"400 Bad Request", "Invalid callback", error, false⟩

def notFoundPage : Page :=
  ⟨"404 Not Found", "Not found", "This is not the active OAuth callback path.", false⟩

def bridgePage : Page :=
  ⟨"200 OK", "Completing authorization",
    "Brunomnia is collecting the token from the redirect fragment.", true⟩

def mismatchPage : Page :=
  ⟨"400 Bad Request", "State mismatch",
    "The callback state did not match this authorization attempt.", false⟩

def completedPage (failed : Bool) : Page :=
  if failed then
    ⟨"400 Bad Request", "Authorization failed",
      "Return to Brunomnia to review the provider error.", false⟩
  else
    ⟨"200 OK", "Authorization complete",
      "You can close this tab and return to Brunomnia.", false⟩

/-- What the loop does after a connection. -/
inductive Next where
  | goOn
  | finish (result : Except String Parameters)

/-- `send_page(..).await?` before what comes next. -/
def afterPage (connection : Connection) (page : Page) (next : Next) : Next :=
  match connection.sendPage page with
  | .ok _ => next
  | .error error => .finish (.error error)

/-- `let _ = send_page(..).await` before what comes next. -/
def ignoringPage (connection : Connection) (page : Page) (next : Next) : Next :=
  match connection.sendPage page with
  | .ok _ | .error _ => next

/-- The loop after the parameters of a callback on the right path. -/
def handleParameters (prepared : PreparedCallback) (connection : Connection)
    (parameters : Parameters) : Next :=
  if ¬ hasOauthResponse parameters ∧ prepared.responseType ≠ "code".toList then
    afterPage connection bridgePage .goOn
  else if parameters.read "state".toList ≠ some prepared.expectedState then
    afterPage connection mismatchPage .goOn
  else
    afterPage connection (completedPage (parameters.read "error".toList).isSome)
      (.finish (.ok parameters))

def callbackUrl (target : Text) : Option Url :=
  parser.parse ("http://localhost".toList ++ target)

/-- The body of the loop after a connection was accepted. -/
def handleConnection (prepared : PreparedCallback) (connection : Connection) : Next :=
  match readTarget connection with
  | .error error => ignoringPage connection (invalidPage error) .goOn
  | .ok target =>
      match callbackUrl parser target with
      | none => .finish (.error "The OAuth callback target was malformed.")
      | some callback =>
          if callback.path ≠ prepared.callbackPath then
            ignoringPage connection notFoundPage .goOn
          else handleParameters prepared connection (urlParameters parser callback)

/-- What the loop waits for. -/
inductive Event where
  | connection (connection : Connection)
  | cancelled
  | deadline
  | acceptFailed (error : String)

/-- The loop after some events, if it has returned. -/
def waitForCallback (prepared : PreparedCallback) : List Event → Option (Except String Parameters)
  | [] => none
  | .cancelled :: _ => some (.error "OAuth authorization was canceled.")
  | .deadline :: _ => some (.error "OAuth authorization timed out after five minutes.")
  | .acceptFailed error :: _ => some (.error error)
  | .connection connection :: rest =>
      match handleConnection parser prepared connection with
      | .goOn => waitForCallback prepared rest
      | .finish result => some result

end Brunomnia.OAuthCallback
