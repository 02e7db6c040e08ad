import Brunomnia.Evidence.RequestSnapshots
import Brunomnia.Library.Runs

/-!
# Evidence in a report

The snapshots of a report share one budget, whichever calls take them and in whichever order.
None of them goes over its limit, all of them together take from the budget what they count, and
they show the sources as far as the texts that are cut can be read, headers have names that a
record has members for, and the summary of a body fits if the rest does.
-/

namespace Brunomnia.Evidence

open Library

variable (platform : UrlClass)

/-! ## Snapshots -/

def Snapshot.perResultBytes : Snapshot → ℤ
  | .request _ => runnerRequestPerResultBytes
  | .response _ => runnerResponsePerResultBytes
  | .timeline _ => runnerTimelinePerResultBytes

def Snapshot.keptBytes : Snapshot → ℕ
  | .request snapshot => snapshot.keptBytes
  | .response snapshot => snapshot.keptBytes
  | .timeline snapshot => snapshot.keptBytes

def Snapshot.storedBytes : Snapshot → ℕ
  | .request snapshot => snapshot.storedBytes
  | .response snapshot => snapshot.storedBytes
  | .timeline snapshot => snapshot.storedBytes

/-- Every text of a snapshot is the start of one of its source. -/
def Starts : Call → Snapshot → Prop
  | .request request values requestUrl, .request snapshot =>
      RequestStarts (requestSource platform request values requestUrl) snapshot
  | .response response, .response snapshot => ResponseStarts response snapshot
  | .timeline timeline, .timeline snapshot => TimelineStarts platform timeline snapshot
  | _, _ => False

/-- What a snapshot does not show of its source is marked as cut. -/
def Marks : Call → Snapshot → Prop
  | .request request values requestUrl, .request snapshot =>
      RequestMarks (requestSource platform request values requestUrl) snapshot
  | .response response, .response snapshot => ResponseMarks response snapshot
  | .timeline timeline, .timeline snapshot => TimelineMarks platform timeline snapshot
  | _, _ => False

/-- The calls that a snapshot can be trusted for, given what is left of the budget. -/
def ReadableCall (budget : ℤ) : Call → Prop
  | .request request values requestUrl =>
      RequestReadable budget (requestSource platform request values requestUrl)
  | .response response => ResponseReadable budget response
  | .timeline timeline => TimelineReadable platform budget timeline

theorem capture_accounts (budget : ℤ) (call : Call) :
    Accounts (capture platform budget call).1.perResultBytes budget (capture platform budget call).2
      (capture platform budget call).1.keptBytes (capture platform budget call).1.storedBytes := by
  cases call with
  | request request values requestUrl =>
      exact captureRunnerRequest_accounts platform request values requestUrl budget
  | response response => exact captureRunnerResponse_accounts response budget
  | timeline timeline => exact captureRunnerTimeline_accounts platform timeline budget

instance (budget : ℤ) : DecidablePred (ReadableCall platform budget)
  | .request _ _ _ => inferInstanceAs (Decidable (RequestReadable _ _))
  | .response _ => inferInstanceAs (Decidable (ResponseReadable _ _))
  | .timeline _ => inferInstanceAs (Decidable (TimelineReadable _ _ _))

variable {platform} {budget : ℤ} {call : Call}

theorem capture_starts (readable : ReadableCall platform budget call) :
    Starts platform call (capture platform budget call).1 := by
  cases call with
  | request request values requestUrl => exact captureRunnerRequest_starts readable
  | response response => exact captureRunnerResponse_starts readable
  | timeline timeline => exact captureRunnerTimeline_starts platform readable

theorem capture_marks (readable : ReadableCall platform budget call) :
    Marks platform call (capture platform budget call).1 := by
  cases call with
  | request request values requestUrl => exact captureRunnerRequest_marks readable
  | response response => exact captureRunnerResponse_marks readable
  | timeline timeline => exact captureRunnerTimeline_marks platform

/-! ## Runs -/

/-- What a report promises about the snapshots of calls that share a budget. -/
structure Sound (platform : UrlClass) (budget : ℤ) (calls : List Call) : Prop where
  total : (((captureAll platform budget calls).1.map Snapshot.keptBytes).sum : ℤ) ≤ max 0 budget
  perResult : ∀ snapshot ∈ (captureAll platform budget calls).1,
    (snapshot.keptBytes : ℤ) ≤ snapshot.perResultBytes
  spent : (((captureAll platform budget calls).1.map Snapshot.storedBytes).sum : ℤ) =
    budget - (captureAll platform budget calls).2
  evidence : List.Forall₂
    (fun call snapshot => Starts platform call snapshot ∧ Marks platform call snapshot) calls
    (captureAll platform budget calls).1

theorem captureAll_cons (budget : ℤ) (call : Call) (rest : List Call) :
    captureAll platform budget (call :: rest) =
      ((capture platform budget call).1 ::
        (captureAll platform (capture platform budget call).2 rest).1,
        (captureAll platform (capture platform budget call).2 rest).2) := rfl

variable (platform) in
theorem captureAll_total (budget : ℤ) (calls : List Call) :
    ((captureAll platform budget calls).1.map Snapshot.keptBytes).sum ≤
        ((captureAll platform budget calls).1.map Snapshot.storedBytes).sum ∧
      (((captureAll platform budget calls).1.map Snapshot.storedBytes).sum : ℤ) ≤ max 0 budget := by
  induction calls generalizing budget with
  | nil => simp [captureAll]
  | cons call rest ih =>
      have first := capture_accounts platform budget call
      have others := ih (capture platform budget call).2
      have counted := first.counted
      have within := first.within
      have spent := first.spent
      rw [captureAll_cons, List.map_cons, List.map_cons, List.sum_cons, List.sum_cons]
      constructor
      · omega
      · rw [Nat.cast_add]
        omega

theorem captureAll_spent (budget : ℤ) (calls : List Call) :
    (((captureAll platform budget calls).1.map Snapshot.storedBytes).sum : ℤ) =
      budget - (captureAll platform budget calls).2 := by
  induction calls generalizing budget with
  | nil => simp [captureAll]
  | cons call rest ih =>
      have others := ih (capture platform budget call).2
      have spent := (capture_accounts platform budget call).spent
      rw [captureAll_cons, List.map_cons, List.sum_cons]
      rw [Nat.cast_add]
      omega

theorem captureAll_perResult (budget : ℤ) (calls : List Call) :
    ∀ snapshot ∈ (captureAll platform budget calls).1,
      (snapshot.keptBytes : ℤ) ≤ snapshot.perResultBytes := by
  induction calls generalizing budget with
  | nil => simp [captureAll]
  | cons call rest ih =>
      intro snapshot snapshotMem
      rw [captureAll_cons] at snapshotMem
      rcases List.mem_cons.mp snapshotMem with rfl | snapshotMem
      · have first := capture_accounts platform budget call
        have counted := first.counted
        have within := first.within
        omega
      · exact ih _ snapshot snapshotMem

/-- The budget that is left after a call. -/
def leave (platform : UrlClass) (budget : ℤ) (call : Call) : ℤ :=
  (capture platform budget call).2

/-- The snapshots of a run are sound if each of its calls finds what it can be trusted for. -/
theorem captureAll_sound (platform : UrlClass) (budget : ℤ) (calls : List Call)
    (readable : EveryStep (leave platform) budget calls (ReadableCall platform)) :
    Sound platform budget calls := by
  refine ⟨?_, captureAll_perResult budget calls, captureAll_spent budget calls, ?_⟩
  · have total := captureAll_total platform budget calls
    omega
  · induction calls generalizing budget with
    | nil => exact .nil
    | cons call rest ih =>
        rcases everyStep_cons_iff.mp readable with ⟨first, others⟩
        rw [captureAll_cons]
        exact .cons ⟨capture_starts first, capture_marks first⟩ (ih _ others)

/-- A platform where no text is an absolute URL. -/
def noUrls : UrlClass where
  Url := Unit
  construct _ := none
  searchKeys _ := []
  searchSet url _ _ := url
  searchAppend url _ _ := url
  toText _ := []

def ordersRequest : ApiRequest where
  protocol := .http
  method := text "GET"
  url := text "/orders"
  pathParams := []
  params := []
  headers := [⟨text "X-Token", text "s3cret", true⟩]
  encodeUrl := true
  bodyMode := .none
  body := []
  formBody := []
  multipartBody := []
  binaryBody := none
  auth := ⟨.none, false, [], [], [], [], [], [], false⟩
  graphql := ⟨[], [], []⟩
  grpc := ⟨[], [], []⟩
  socketIo := ⟨[], [], false⟩

/-- A request, its response and its timeline. -/
def ordersCalls : List Call :=
  [.request ordersRequest (fun _ => none) none,
    .response ⟨text "OK", ⟨[(text "server", text "é")], by decide⟩, text "🙂🙂🙂", 12, none⟩,
    .timeline [⟨.headerOut, text "GET /orders\nCookie: id=1", .finite 0, none⟩]]

/-- The body and the timeline are cut, the body between two characters. -/
theorem ordersCalls_sound : Sound noUrls 60 ordersCalls :=
  captureAll_sound noUrls 60 ordersCalls
    (everyStep_cons_iff.mpr ⟨by decide, everyStep_cons_iff.mpr ⟨by decide,
      everyStep_cons_iff.mpr ⟨by decide, fun _ inRange => absurd inRange (Nat.not_lt_zero _)⟩⟩⟩)

/-- A text with a byte order mark, of which all but one byte fits. -/
def markedResponse : HttpResponse :=
  ⟨[], Store.empty, ofLetters [byteOrderMark, 'a', 'b', 'c'], 6, none⟩

def prototypeResponse : HttpResponse :=
  ⟨[], ⟨[(text "__proto__", text "x")], by decide⟩, [], 0, none⟩

/-- A request whose fields have a name that is longer than what is left after the URL. -/
def formRequest : ApiRequest :=
  { ordersRequest with
    headers := []
    bodyMode := .formUrlencoded
    formBody := [⟨text "customer_reference", [], true⟩] }

theorem not_sound_of_response {response : HttpResponse} {budget : ℤ}
    (unsound : ¬ (ResponseStarts response (captureRunnerResponse response budget).1 ∧
      ResponseMarks response (captureRunnerResponse response budget).1)) :
    ¬ Sound platform budget [.response response] := by
  intro sound
  rcases sound.evidence with _ | ⟨both, _⟩
  exact unsound both

theorem evidence_unsound :
    ¬ Sound noUrls 5 [.response markedResponse] ∧
      ¬ Sound noUrls 1000000 [.response prototypeResponse] ∧
        ¬ Sound noUrls 20 [.request formRequest (fun _ => none) none] := by
  refine ⟨?_, ?_, ?_⟩
  · apply not_sound_of_response
    rintro ⟨starts, _⟩
    exact absurd starts.body (by decide)
  · apply not_sound_of_response
    rintro ⟨_, marks⟩
    exact absurd (marks.headers (by decide)) (by decide)
  · intro sound
    rcases sound.evidence with _ | ⟨both, _⟩
    exact absurd (both.2.bodySummary (by decide)) (by decide)

end Brunomnia.Evidence
