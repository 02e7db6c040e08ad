import Brunomnia.Codegen.Text

/-!
# The cookie jar

Cookies that responses set are parsed from their headers, kept one for a name, domain and path,
and sent with the requests they match. What the runtime knows about letter case, numbers, dates
and the collation of texts is a parameter.
-/

namespace Brunomnia.Cookies

open Codegen (Text trimText encodeURIComponent)

/-! ## Times -/

/-- The last time that a date can have, in milliseconds. -/
def maxTime : ℤ := 8640000000000000

/-- The time of a date that is not invalid. -/
structure Instant where
  ms : ℤ
  inRange : |ms| ≤ maxTime
  deriving DecidableEq

def isLowerAscii (letter : Char) : Bool :=
  letter.toNat < 128 && !letter.isUpper

structure Runtime where
  lowerCase : Text → Text
  lowerCase_of_lower : ∀ text : Text, text.all isLowerAscii = true → lowerCase text = text
  /-- `Number(text)` when it is finite. -/
  number : Text → Option ℚ
  /-- The double that is nearest. -/
  round : ℚ → ℚ
  /-- `Date.parse(text)` when it is finite. -/
  parseDate : Text → Option Instant
  /-- `left.localeCompare(right) <= 0` for the texts of two dates. -/
  createdLe : Instant → Instant → Bool
  createdLe_total : ∀ left right, createdLe left right || createdLe right left
  createdLe_trans : ∀ first second third, createdLe first second → createdLe second third →
    createdLe first third

def truncate (value : ℚ) : ℤ :=
  if 0 ≤ value then ⌊value⌋ else ⌈value⌉

theorem truncate_inRange {value : ℚ} (inRange : |value| ≤ maxTime) :
    |truncate value| ≤ maxTime := by
  rw [abs_le] at inRange ⊢
  simp only [truncate]
  split
  case isTrue nonneg =>
      have floor_nonneg : 0 ≤ ⌊value⌋ := Int.floor_nonneg.mpr nonneg
      refine ⟨?_, ?_⟩
      · simp only [maxTime]
        omega
      · exact Int.floor_le_iff.mpr (by linarith [inRange.2])
  case isFalse negative =>
      have ceil_nonpos : ⌈value⌉ ≤ 0 := Int.ceil_le.mpr (by push_cast; linarith)
      refine ⟨?_, ?_⟩
      · apply Int.le_ceil_iff.mpr
        push_cast
        linarith [inRange.1]
      · simp only [maxTime]
        omega

variable (runtime : Runtime)

/-- `new Date(now.getTime() + seconds * 1000).toISOString()`. -/
def maxAgeExpiry (now : Instant) (seconds : ℚ) : Except String Instant :=
  let time := runtime.round (now.ms + runtime.round (seconds * 1000))
  if inRange : |time| ≤ maxTime then .ok ⟨truncate time, truncate_inRange inRange⟩
  else .error "RangeError: Invalid time value"

/-! ## Addresses -/

def labels (hostname : Text) : List Text := hostname.splitOn '.'

def isNumeric (label : Text) : Bool :=
  label ≠ [] ∧ label.all Char.isDigit

def isIpv4 (hostname : Text) : Bool :=
  (labels hostname).length = 4 ∧ (labels hostname).all isNumeric

def isIpv6 (hostname : Text) : Bool :=
  hostname.head? = some '['

def isIpAddress (hostname : Text) : Bool :=
  isIpv4 hostname || isIpv6 hostname

/-- What the URL parser makes of a request URL: a host that ends in a number is an address, and
brackets enclose an address without dots. -/
structure Url where
  protocol : Text
  hostname : Text
  pathname : Text
  lower : hostname.all isLowerAscii = true
  numeric : ∀ label ∈ (labels hostname).getLast?, isNumeric label → isIpv4 hostname
  bracketed : '[' ∈ hostname → isIpv6 hostname ∧ '.' ∉ hostname

/-! ## Parsing -/

inductive SameSite where
  | strict
  | lax
  | none
  | unset
  deriving DecidableEq

structure CookieRecord where
  id : Text
  name : Text
  value : Text
  domain : Text
  path : Text
  expires : Option Instant
  secure : Bool
  httpOnly : Bool
  sameSite : SameSite
  hostOnly : Bool
  createdAt : Instant
  deriving DecidableEq

def cookieId (domain path name : Text) : Text :=
  "cookie-".toList ++ encodeURIComponent domain ++ ['-'] ++ encodeURIComponent path ++ ['-'] ++
    encodeURIComponent name

def defaultPath (pathname : Text) : Text :=
  if pathname.head? ≠ some '/' ∨ pathname = ['/'] then ['/']
  else
    let parent := (pathname.reverse.dropWhile (· ≠ '/')).drop 1
    if parent = [] then ['/'] else parent.reverse

/-- An attribute as the loop over the attributes distinguishes them. -/
inductive Attribute where
  | domain (domain : Text)
  | path (path : Text)
  | expires (expires : Option Instant)
  | maxAge (seconds : ℚ)
  | secure
  | httpOnly
  | sameSite (sameSite : SameSite)
  | ignored
  deriving DecidableEq

def readSameSite (value : Text) : Option SameSite :=
  if value = "strict".toList then some .strict
  else if value = "lax".toList then some .lax
  else if value = "none".toList then some .none
  else none

def dropDot (text : Text) : Text :=
  if text.head? = some '.' then text.tail else text

def readAttribute (rawAttribute : Text) : Attribute :=
  let raw := trimText rawAttribute
  let attributeName := runtime.lowerCase (raw.takeWhile (· ≠ '='))
  let attributeValue := trimText ((raw.dropWhile (· ≠ '=')).drop 1)
  if attributeName = "domain".toList ∧ attributeValue ≠ [] then
    .domain (runtime.lowerCase (dropDot attributeValue))
  else if attributeName = "path".toList ∧ attributeValue.head? = some '/' then .path attributeValue
  else if attributeName = "expires".toList then .expires (runtime.parseDate attributeValue)
  else if attributeName = "max-age".toList then
    match runtime.number attributeValue with
    | some seconds => .maxAge seconds
    | none => .ignored
  else if attributeName = "secure".toList then .secure
  else if attributeName = "httponly".toList then .httpOnly
  else if attributeName = "samesite".toList then
    match readSameSite (runtime.lowerCase attributeValue) with
    | some sameSite => .sameSite sameSite
    | none => .ignored
  else .ignored

/-- The variables that the attributes set. -/
structure Settings where
  domain : Text
  path : Text
  expires : Option Instant
  secure : Bool
  httpOnly : Bool
  sameSite : SameSite
  hostOnly : Bool

def Settings.apply (now : Instant) (settings : Settings) : Attribute → Except String Settings
  | .domain domain => .ok { settings with domain, hostOnly := false }
  | .path path => .ok { settings with path }
  | .expires expires => .ok { settings with expires }
  | .maxAge seconds => do
      let expires ← maxAgeExpiry runtime now seconds
      return { settings with expires := some expires }
  | .secure => .ok { settings with secure := true }
  | .httpOnly => .ok { settings with httpOnly := true }
  | .sameSite sameSite => .ok { settings with sameSite }
  | .ignored => .ok settings

def headerPair (header : Text) : Text := (header.splitOn ';').headD []

def headerAttributes (header : Text) : List Attribute :=
  ((header.splitOn ';').tail).map (readAttribute runtime)

def nameAndValue (header : Text) : Option (Text × Text) :=
  let pair := headerPair header
  if '=' ∉ pair ∨ pair.head? = some '=' then none
  else
    let name := trimText (pair.takeWhile (· ≠ '='))
    if name = [] then none else some (name, trimText ((pair.dropWhile (· ≠ '=')).drop 1))

def domainCovers (domain hostname : Text) : Bool :=
  hostname = domain || ('.' :: domain).isSuffixOf hostname

def initialSettings (url : Url) : Settings where
  domain := runtime.lowerCase url.hostname
  path := defaultPath url.pathname
  expires := none
  secure := false
  httpOnly := false
  sameSite := .unset
  hostOnly := true

def parseSetCookie (header : Text) (url : Url) (now : Instant) :
    Except String (Option CookieRecord) :=
  match nameAndValue header with
  | none => .ok none
  | some (name, value) => do
      let settings ← (headerAttributes runtime header).foldlM (Settings.apply runtime now)
        (initialSettings runtime url)
      let hostname := runtime.lowerCase url.hostname
      let rejected : Bool :=
        if settings.hostOnly then settings.domain ≠ hostname
        else ¬ domainCovers settings.domain hostname
      if rejected then return none
      return some {
        id := cookieId settings.domain settings.path name
        name, value
        domain := settings.domain
        path := settings.path
        expires := settings.expires
        secure := settings.secure
        httpOnly := settings.httpOnly
        sameSite := settings.sameSite
        hostOnly := settings.hostOnly
        createdAt := now }

/-! ## Storing -/

def CookieRecord.key (cookie : CookieRecord) : Text × Text × Text :=
  (cookie.name, cookie.domain, cookie.path)

def CookieRecord.isExpired (cookie : CookieRecord) (now : Instant) : Bool :=
  cookie.expires.any fun expires => expires.ms ≤ now.ms

/-- What a parsed cookie makes of the jar. -/
def storeCookie (output : List CookieRecord) (parsed : CookieRecord) (now : Instant) :
    List CookieRecord :=
  match output.findIdx? (fun cookie => cookie.key = parsed.key) with
  | some index =>
      if parsed.isExpired now then output.eraseIdx index else output.set index parsed
  | none => if parsed.isExpired now then output else output ++ [parsed]

def storeHeader (url : Url) (now : Instant) (output : List CookieRecord) (header : Text) :
    Except String (List CookieRecord) := do
  match ← parseSetCookie runtime header url now with
  | some parsed => return storeCookie output parsed now
  | none => return output

def storeResponseCookies (cookies : List CookieRecord) (url : Url) (setCookieHeaders : List Text)
    (now : Instant) : Except String (List CookieRecord) :=
  setCookieHeaders.foldlM (storeHeader runtime url now) cookies

/-! ## Sending -/

def domainMatches (cookie : CookieRecord) (hostname : Text) : Bool :=
  if cookie.hostOnly then hostname = cookie.domain else domainCovers cookie.domain hostname

def pathMatches (cookiePath requestPath : Text) : Bool :=
  requestPath = cookiePath ∨
    cookiePath <+: requestPath ∧
      (cookiePath.getLast? = some '/' ∨ requestPath[cookiePath.length]? = some '/')

def textLength (text : Text) : ℕ := (text.map utf16Units).sum

/-- The comparison of the sort is not positive. -/
def sentBefore (left right : CookieRecord) : Bool :=
  textLength right.path < textLength left.path ∨
    textLength right.path = textLength left.path ∧
      runtime.createdLe left.createdAt right.createdAt

def isSent (cookie : CookieRecord) (url : Url) (now : Instant) : Bool :=
  if cookie.isExpired now then false
  else if cookie.secure ∧ url.protocol ≠ "https:".toList ∧ url.protocol ≠ "wss:".toList then false
  else
    domainMatches cookie (runtime.lowerCase url.hostname) &&
      pathMatches cookie.path (if url.pathname = [] then ['/'] else url.pathname)

def cookiesForUrl (cookies : List CookieRecord) (url : Url) (now : Instant) :
    List CookieRecord :=
  (cookies.filter fun cookie => isSent runtime cookie url now).mergeSort (sentBefore runtime)

/-! ## Runs -/

structure Call where
  url : Url
  headers : List Text
  now : Instant

/-- The jar after some responses. -/
def storeAll (calls : List Call) : Except String (List CookieRecord) :=
  calls.foldlM (fun jar call => storeResponseCookies runtime jar call.url call.headers call.now) []

end Brunomnia.Cookies
