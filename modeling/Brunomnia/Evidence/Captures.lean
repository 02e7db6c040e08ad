import Brunomnia.Evidence.Requests
import Brunomnia.Library.Stores

/-!
# Evidence of a run

The report of a run keeps what was sent, what came back and how it went, as far as a budget of
bytes allows that all results share. Every result has a limit of its own, and so has every text
in it. A text that is too long is cut in front of the character that does not fit.
-/

namespace Brunomnia.Evidence

open Library

def runnerResponsePerResultBytes : ℤ := 32000

def runnerRequestPerResultBytes : ℤ := 16000

def runnerTimelinePerResultBytes : ℤ := 64000

def runnerResponseBodyBytes : ℤ := 16000

def runnerResponseHeaders : ℕ := 64

def runnerTimelineEntries : ℕ := 1000

/-! ## Cutting -/

/-- What is taken of a text, and what it takes from the budget. -/
structure Taken where
  value : Text
  bytes : ℕ
  truncated : Bool
  deriving DecidableEq

/-- The most of the first bytes that can be decoded. -/
def takeDecoded (encoded : List UInt8) : ℕ → Taken
  | 0 => ⟨[], 0, 0 < encoded.length⟩
  | stop + 1 =>
      match decode (encoded.take (stop + 1)) with
      | some value => ⟨value, stop + 1, true⟩
      | none => takeDecoded encoded stop

def takeUtf8 (value : Text) (maximumBytes : ℤ) : Taken :=
  let encoded := encode value
  if encoded.length ≤ maximumBytes then ⟨value, encoded.length, false⟩
  else takeDecoded encoded (max 0 maximumBytes).toNat

/-- What a snapshot may still take, next to the budget that it takes it from. -/
structure Meter where
  remaining : ℤ
  budget : ℤ
  storedBytes : ℕ

/-- The meter at the start of a snapshot. -/
def openMeter (perResult budget : ℤ) : Meter :=
  ⟨min perResult (max 0 budget), budget, 0⟩

/-- `take(value, limit)` -/
def Meter.take (meter : Meter) (value : Text) (limit : ℤ) : Taken × Meter :=
  let result := takeUtf8 value (min limit meter.remaining)
  (result,
    { remaining := meter.remaining - result.bytes
      budget := meter.budget - result.bytes
      storedBytes := meter.storedBytes + result.bytes })

/-! ## Headers -/

structure HeaderState (Headers : Type) where
  meter : Meter
  headers : Headers
  truncated : Bool

section Loop

variable {Source Headers : Type} (texts : Source → Text × Text)
  (store : Headers → Source → Text → Text → Headers)

/-- One turn of the loop over headers: `texts` has the name and the value to take of a header,
and `store` puts what was taken of them to the others. -/
def takeHeader (source : Source) (state : HeaderState Headers) : HeaderState Headers :=
  let name := state.meter.take (texts source).1 256
  let value := name.2.take (texts source).2 2048
  { meter := value.2
    headers :=
      if name.1.value = [] then state.headers
      else store state.headers source name.1.value value.1.value
    truncated := state.truncated || (name.1.truncated || value.1.truncated) }

def takeHeaders : List Source → HeaderState Headers → HeaderState Headers
  | [], state => state
  | source :: rest, state =>
      if state.meter.remaining ≤ 0 then { state with truncated := true }
      else takeHeaders rest (takeHeader texts store source state)

end Loop

/-- `record[key] = value`. Setting `__proto__` to a text makes no member, and a key keeps the
place where it was set first. -/
def setMember (record : Store Text Text) (key value : Text) : Store Text Text :=
  if key = text "__proto__" then record
  else if present : key ∈ record.keys then record.replace key value
  else record.append key value present

/-! ## Responses -/

structure HttpResponse where
  statusText : Text
  headers : Store Text Text
  body : Text
  sizeBytes : ℕ
  wireSizeBytes : Option ℕ

structure RunnerResponseSnapshot where
  statusText : Text
  statusTextTruncated : Bool
  headers : Store Text Text
  headersTruncated : Bool
  bodyPreview : Text
  bodyTruncated : Bool
  sizeBytes : ℕ
  storedBytes : ℕ

def captureRunnerResponse (response : HttpResponse) (budget : ℤ) : RunnerResponseSnapshot × ℤ :=
  let meter := openMeter runnerResponsePerResultBytes budget
  let statusText := meter.take response.statusText 512
  let entries := response.headers.entries
  let headers := takeHeaders id (fun record _ name value => setMember record name value)
    (entries.take runnerResponseHeaders)
    ⟨statusText.2, Store.empty, runnerResponseHeaders < entries.length⟩
  let body := headers.meter.take response.body runnerResponseBodyBytes
  ({ statusText := statusText.1.value
     statusTextTruncated := statusText.1.truncated
     headers := headers.headers
     headersTruncated := headers.truncated
     bodyPreview := body.1.value
     bodyTruncated := body.1.truncated
     sizeBytes := response.wireSizeBytes.getD response.sizeBytes
     storedBytes := body.2.storedBytes }, body.2.budget)

section Platform

variable (platform : UrlClass)

/-! ## Timelines -/

structure RunnerTimelineSnapshot where
  entries : List ResponseTimelineEntry
  truncated : Bool
  storedBytes : ℕ

structure TimelineState where
  meter : Meter
  entries : List ResponseTimelineEntry
  truncated : Bool

/-- `Number.isFinite(elapsedMs) ? Math.max(0, elapsedMs) : 0` -/
def clampElapsed : Elapsed → Elapsed
  | .finite milliseconds => .finite (max 0 milliseconds)
  | .notFinite => .finite 0

/-- One turn of the loop over entries, with whether it is the last one. -/
def takeEntry (entry : ResponseTimelineEntry) (state : TimelineState) : Bool × TimelineState :=
  let value := state.meter.take (redactTimelineValue platform entry) state.meter.remaining
  (value.1.truncated,
    { meter := value.2
      entries := state.entries ++
        [{ entry with value := value.1.value, elapsedMs := clampElapsed entry.elapsedMs }]
      truncated := state.truncated || value.1.truncated })

def takeEntries : List ResponseTimelineEntry → TimelineState → TimelineState
  | [], state => state
  | entry :: rest, state =>
      if state.meter.remaining ≤ 0 then { state with truncated := true }
      else
        let taken := takeEntry platform entry state
        if taken.1 then taken.2 else takeEntries rest taken.2

def captureRunnerTimeline (timeline : List ResponseTimelineEntry) (budget : ℤ) :
    RunnerTimelineSnapshot × ℤ :=
  let state := takeEntries platform (timeline.take runnerTimelineEntries)
    ⟨openMeter runnerTimelinePerResultBytes budget, [], runnerTimelineEntries < timeline.length⟩
  (⟨state.entries, state.truncated, state.meter.storedBytes⟩, state.meter.budget)

/-! ## Requests -/

structure SnapshotHeader where
  name : Text
  value : Text
  redacted : Bool
  deriving DecidableEq

structure RunnerRequestSnapshot where
  protocol : Protocol
  method : Text
  url : Text
  urlTruncated : Bool
  headers : List SnapshotHeader
  headersTruncated : Bool
  bodyMode : BodyKind
  bodySummary : Text
  bodySizeBytes : ℕ
  bodySizeEstimated : Bool
  storedBytes : ℕ

/-- The URL that was sent or would be, or the editable one where none can be built. -/
def resolvedUrl (request : ApiRequest) (values : Text → Option Text) (requestUrl : Option Text) :
    Text :=
  requestUrl.getD ((buildRequestUrl platform request values).getD request.url)

def configuredHeaders (request : ApiRequest) (values : Text → Option Text) : List KeyValue :=
  (buildHeaders request values).filter fun header => header.enabled && header.name ≠ []

def headerTexts (header : KeyValue) : Text × Text :=
  (header.name, if sensitiveName header.name then redacted else header.value)

def captureRunnerRequest (request : ApiRequest) (values : Text → Option Text)
    (requestUrl : Option Text) (budget : ℤ) : RunnerRequestSnapshot × ℤ :=
  let meter := openMeter runnerRequestPerResultBytes budget
  let url := meter.take
    (redactSensitiveQuery platform (resolvedUrl platform request values requestUrl)) 4000
  let configured := configuredHeaders request values
  let headers := takeHeaders headerTexts
    (fun headers header name value => headers ++ [⟨name, value, sensitiveName header.name⟩])
    (configured.take 64) ⟨url.2, [], 64 < configured.length⟩
  let body := requestBodyMetadata request values
  let bodySummary := headers.meter.take body.summary 2000
  ({ protocol := request.protocol
     method := request.method
     url := url.1.value
     urlTruncated := url.1.truncated
     headers := headers.headers
     headersTruncated := headers.truncated
     bodyMode := body.mode
     bodySummary := bodySummary.1.value
     bodySizeBytes := body.bytes
     bodySizeEstimated := body.estimated
     storedBytes := bodySummary.2.storedBytes }, bodySummary.2.budget)

/-! ## Runs -/

/-- A call that takes evidence. -/
inductive Call where
  | request (request : ApiRequest) (values : Text → Option Text) (requestUrl : Option Text)
  | response (response : HttpResponse)
  | timeline (timeline : List ResponseTimelineEntry)

inductive Snapshot where
  | request (snapshot : RunnerRequestSnapshot)
  | response (snapshot : RunnerResponseSnapshot)
  | timeline (snapshot : RunnerTimelineSnapshot)

def capture (budget : ℤ) : Call → Snapshot × ℤ
  | .request request values requestUrl =>
      (captureRunnerRequest platform request values requestUrl budget).map .request id
  | .response response => (captureRunnerResponse response budget).map .response id
  | .timeline timeline => (captureRunnerTimeline platform timeline budget).map .timeline id

/-- The snapshots of calls that share a budget, and what they leave of it. -/
def captureAll : ℤ → List Call → List Snapshot × ℤ
  | budget, [] => ([], budget)
  | budget, call :: rest =>
      let taken := capture platform budget call
      let others := captureAll taken.2 rest
      (taken.1 :: others.1, others.2)

end Platform

end Brunomnia.Evidence
