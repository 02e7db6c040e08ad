import Brunomnia.Evidence.Timelines

/-!
# Evidence of requests

What the snapshot of a request shows of it. The URL and the headers are marked where they are
cut. The summary of the body comes last and has no mark of its own.
-/

namespace Brunomnia.Evidence

open Library

/-- The texts that a snapshot takes from a request. -/
structure RequestSource where
  url : Text
  headers : List KeyValue
  summary : Text

def requestSource (platform : UrlClass) (request : ApiRequest) (values : Text → Option Text)
    (requestUrl : Option Text) : RequestSource :=
  ⟨redactSensitiveQuery platform (resolvedUrl platform request values requestUrl),
    configuredHeaders request values, (requestBodyMetadata request values).summary⟩

/-- A header as a snapshot shows it. -/
def shownHeader (header : KeyValue) : SnapshotHeader :=
  ⟨header.name, (headerTexts header).2, sensitiveName header.name⟩

def headerBytes (header : SnapshotHeader) : ℕ :=
  byteLength header.name + byteLength header.value

def RunnerRequestSnapshot.keptBytes (snapshot : RunnerRequestSnapshot) : ℕ :=
  byteLength snapshot.url + cost headerBytes snapshot.headers + byteLength snapshot.bodySummary

structure RequestStarts (source : RequestSource) (snapshot : RunnerRequestSnapshot) : Prop where
  url : StartsText snapshot.url source.url
  headers : ∀ header ∈ snapshot.headers, ∃ sent ∈ source.headers,
    StartsText header.name sent.name ∧ StartsText header.value (headerTexts sent).2
  bodySummary : StartsText snapshot.bodySummary source.summary

/-- What is not in a snapshot is marked as cut, and the summary by any of the marks. -/
structure RequestMarks (source : RequestSource) (snapshot : RunnerRequestSnapshot) : Prop where
  url : snapshot.url ≠ source.url → snapshot.urlTruncated = true
  headers : snapshot.headers ≠ source.headers.map shownHeader → snapshot.headersTruncated = true
  bodySummary : snapshot.bodySummary ≠ source.summary →
    snapshot.urlTruncated = true ∨ snapshot.headersTruncated = true

/-- What the texts of a request ask for in front of the summary. -/
def headDemands (source : RequestSource) : List (Demand CodePoint) :=
  textDemand 4000 source.url :: headerDemands headerTexts (source.headers.take 64)

/-- The requests that a snapshot shows as they are: whatever is cut can be read, and the summary
fits if everything in front of it does. -/
structure RequestReadable (budget : ℤ) (source : RequestSource) : Prop where
  texts : EveryPart CodePoint.size Shown (allowance runnerRequestPerResultBytes budget)
    (headDemands source ++ [textDemand 2000 source.summary])
  summary : byteLength source.url ≤ 4000 →
    byteLength source.url ≤ allowance runnerRequestPerResultBytes budget →
      source.headers.length ≤ 64 →
        HeadersFit (allowance runnerRequestPerResultBytes budget - byteLength source.url)
          (source.headers.map headerTexts) →
            byteLength source.summary ≤ 2000 ∧ byteLength source.summary ≤
              serve CodePoint.size (allowance runnerRequestPerResultBytes budget)
                (headDemands source)

instance (budget : ℤ) (source : RequestSource) : Decidable (RequestReadable budget source) :=
  decidable_of_iff (_ ∧ _) ⟨fun both => ⟨both.1, both.2⟩, fun readable => ⟨readable.1, readable.2⟩⟩

section Request

variable (source : RequestSource) (budget : ℤ)

/-- What is left after the URL. -/
def urlRoom : ℕ :=
  (textDemand 4000 source.url).left CodePoint.size (allowance runnerRequestPerResultBytes budget)

/-- The state of the loop over the headers at its start. -/
def requestStart : HeaderState (List SnapshotHeader) :=
  ⟨((openMeter runnerRequestPerResultBytes budget).take source.url 4000).2, [],
    64 < source.headers.length⟩

/-- The state of the loop over the headers at its end. -/
def requestHeaders : HeaderState (List SnapshotHeader) :=
  takeHeaders headerTexts
    (fun headers header name value => headers ++ [⟨name, value, sensitiveName header.name⟩])
    (source.headers.take 64) (requestStart source budget)

def summaryRoom : ℕ :=
  serve CodePoint.size (allowance runnerRequestPerResultBytes budget) (headDemands source)

theorem openRequest_stands :
    (openMeter runnerRequestPerResultBytes budget).Stands budget
      (allowance runnerRequestPerResultBytes budget)
      (allowance runnerRequestPerResultBytes budget) :=
  openMeter_stands (by decide) budget

theorem requestStart_stands :
    (requestStart source budget).meter.Stands budget
      (allowance runnerRequestPerResultBytes budget) (urlRoom source budget) :=
  (openRequest_stands budget).take_snd source.url 4000

theorem requestHeaders_stands :
    (requestHeaders source budget).meter.Stands budget
      (allowance runnerRequestPerResultBytes budget) (summaryRoom source budget) :=
  takeHeaders_stands (requestStart_stands source budget)

def urlPart : Taken :=
  takenPart source.url ((textDemand 4000 source.url).part CodePoint.size
    (allowance runnerRequestPerResultBytes budget))

def summaryPart : Taken :=
  takenPart source.summary
    ((textDemand 2000 source.summary).part CodePoint.size (summaryRoom source budget))

theorem take_url :
    ((openMeter runnerRequestPerResultBytes budget).take source.url 4000).1 =
      urlPart source budget :=
  (openRequest_stands budget).take_fst source.url 4000

theorem take_summary :
    ((requestHeaders source budget).meter.take source.summary 2000).1 =
      summaryPart source budget :=
  (requestHeaders_stands source budget).take_fst source.summary 2000

theorem requestHeaders_weight :
    cost headerBytes (requestHeaders source budget).headers + summaryRoom source budget ≤
      urlRoom source budget := by
  have weight : cost headerBytes (requestHeaders source budget).headers +
      summaryRoom source budget ≤ 0 + urlRoom source budget :=
    takeHeaders_weight (requestStart_stands source budget) (cost headerBytes)
      fun headers header name value => by
        rw [cost_append, cost_cons, cost_nil]
        exact le_rfl
  rwa [Nat.zero_add] at weight

variable {source budget}

theorem requestHeaders_starts
    (shown : EveryPart CodePoint.size Shown (urlRoom source budget)
      (headerDemands headerTexts (source.headers.take 64))) :
    ∀ header ∈ (requestHeaders source budget).headers, ∃ sent ∈ source.headers,
      StartsText header.name sent.name ∧ StartsText header.value (headerTexts sent).2 := by
  apply takeHeaders_holds (requestStart_stands source budget)
    (fun headers => ∀ header ∈ headers, ∃ sent ∈ source.headers,
      StartsText header.name sent.name ∧ StartsText header.value (headerTexts sent).2) shown
  · intro headers sent sentMem name value nameStarts valueStarts before header headerMem
    rcases List.mem_append.mp headerMem with headerMem | headerMem
    · exact before header headerMem
    · rw [List.mem_singleton.mp headerMem]
      exact ⟨sent, List.mem_of_mem_take sentMem, nameStarts, valueStarts⟩
  · intro header headerMem
    exact absurd headerMem List.not_mem_nil

theorem foldl_shownHeader {headers : List KeyValue} (shown : List SnapshotHeader)
    (named : ∀ header ∈ headers, header.name ≠ []) :
    headers.foldl
        (fun shown header =>
          if (headerTexts header).1 = [] then shown
          else shown ++ [⟨(headerTexts header).1, (headerTexts header).2,
            sensitiveName header.name⟩]) shown =
      shown ++ headers.map shownHeader := by
  induction headers generalizing shown with
  | nil => exact (List.append_nil _).symm
  | cons header rest ih =>
      have isNamed : (headerTexts header).1 ≠ [] := named header List.mem_cons_self
      rw [List.foldl_cons, if_neg isNamed,
        ih _ fun other otherMem => named other (List.mem_cons_of_mem _ otherMem),
        List.append_assoc, List.map_cons]
      rfl

theorem requestHeaders_of_whole (named : ∀ header ∈ source.headers, header.name ≠ [])
    (whole : (requestHeaders source budget).truncated = false) :
    source.headers.length ≤ 64 ∧
      HeadersFit (urlRoom source budget) (source.headers.map headerTexts) ∧
        (requestHeaders source budget).headers = source.headers.map shownHeader := by
  have start := requestStart_stands source budget
  have fits := (takeHeaders_truncated_eq_false_iff start).mp whole
  have few : source.headers.length ≤ 64 := by simpa [requestStart] using fits.1
  have headers := takeHeaders_headers_of_whole start whole
  rw [List.take_of_length_le few] at fits headers
  refine ⟨few, fits.2, ?_⟩
  rw [requestHeaders, List.take_of_length_le few, headers]
  exact foldl_shownHeader [] named

end Request

section Capture

variable (platform : UrlClass) (request : ApiRequest) (values : Text → Option Text)
  (requestUrl : Option Text) (budget : ℤ)

theorem captureRunnerRequest_eq :
    let source := requestSource platform request values requestUrl
    (captureRunnerRequest platform request values requestUrl budget).1 =
      { protocol := request.protocol
        method := request.method
        url := (urlPart source budget).value
        urlTruncated := (urlPart source budget).truncated
        headers := (requestHeaders source budget).headers
        headersTruncated := (requestHeaders source budget).truncated
        bodyMode := (requestBodyMetadata request values).mode
        bodySummary := (summaryPart source budget).value
        bodySizeBytes := (requestBodyMetadata request values).bytes
        bodySizeEstimated := (requestBodyMetadata request values).estimated
        storedBytes :=
          (captureRunnerRequest platform request values requestUrl budget).1.storedBytes } := by
  intro source
  rw [← take_url, ← take_summary]
  rfl

theorem captureRunnerRequest_accounts :
    Accounts runnerRequestPerResultBytes budget
      (captureRunnerRequest platform request values requestUrl budget).2
      (captureRunnerRequest platform request values requestUrl budget).1.keptBytes
      (captureRunnerRequest platform request values requestUrl budget).1.storedBytes := by
  let source := requestSource platform request values requestUrl
  have last := (requestHeaders_stands source budget).take_snd source.summary 2000
  apply last.accounts (by decide)
  have url : byteLength (urlPart source budget).value + urlRoom source budget ≤
      allowance runnerRequestPerResultBytes budget :=
    byteLength_taken_add_left_le _ _ _
  have headers := requestHeaders_weight source budget
  have summary : byteLength (summaryPart source budget).value +
      (textDemand 2000 source.summary).left CodePoint.size (summaryRoom source budget) ≤
        summaryRoom source budget :=
    byteLength_taken_add_left_le _ _ _
  rw [captureRunnerRequest_eq]
  change byteLength (urlPart source budget).value +
    cost headerBytes (requestHeaders source budget).headers +
      byteLength (summaryPart source budget).value +
        (textDemand 2000 source.summary).left CodePoint.size (summaryRoom source budget) ≤ _
  omega

variable {platform request values requestUrl budget}

theorem captureRunnerRequest_starts
    (readable : RequestReadable budget (requestSource platform request values requestUrl)) :
    RequestStarts (requestSource platform request values requestUrl)
      (captureRunnerRequest platform request values requestUrl budget).1 := by
  have parts := readable.texts
  unfold headDemands at parts
  rw [List.cons_append, EveryPart, everyPart_append] at parts
  rcases parts with ⟨urlShown, headersShown, summaryShown, -⟩
  rw [captureRunnerRequest_eq]
  refine ⟨?_, ?_, ?_⟩
  · exact (startsText_takenPart_iff (fit_start _ _)).mpr urlShown
  · exact requestHeaders_starts headersShown
  · exact (startsText_takenPart_iff (fit_start _ _)).mpr summaryShown

theorem configuredHeaders_named :
    ∀ header ∈ configuredHeaders request values, header.name ≠ [] := by
  intro header headerMem
  have kept := (List.mem_filter.mp headerMem).2
  simp only [Bool.and_eq_true, decide_eq_true_eq] at kept
  exact kept.2

theorem captureRunnerRequest_marks
    (readable : RequestReadable budget (requestSource platform request values requestUrl)) :
    RequestMarks (requestSource platform request values requestUrl)
      (captureRunnerRequest platform request values requestUrl budget).1 := by
  rw [captureRunnerRequest_eq]
  refine ⟨takenPart_marks, ?_, ?_⟩
  · intro lost
    by_contra cut
    have whole := requestHeaders_of_whole configuredHeaders_named (Bool.eq_false_of_not_eq_true cut)
    exact lost whole.2.2
  · intro lost
    by_contra unmarked
    rw [not_or, Bool.not_eq_true, Bool.not_eq_true] at unmarked
    have urlWhole := takenPart_truncated_eq_false_iff.mp unmarked.1
    have urlFits := textDemand_part_eq_iff.mp urlWhole
    rcases requestHeaders_of_whole configuredHeaders_named unmarked.2 with ⟨few, fits, -⟩
    rw [urlRoom, textDemand_left_eq urlWhole] at fits
    have summaryFits := readable.summary urlFits.1 urlFits.2 few fits
    apply lost
    apply takenPart_value_of_whole
    exact takenPart_truncated_eq_false_iff.mpr (textDemand_part_eq_iff.mpr summaryFits)

end Capture

end Brunomnia.Evidence
