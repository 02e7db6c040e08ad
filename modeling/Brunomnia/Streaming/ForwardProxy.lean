import Brunomnia.Library.Splitting

/-!
# Writing through a forward proxy

A stream for a WebSocket whose first write is the request of the handshake. The request line is
rewritten for the proxy, so the inner stream is offered other bytes than the caller wrote, and it
may take them in any pieces. All other calls go straight to the inner stream.
-/

namespace Brunomnia.Streaming.ForwardProxy

open Library

def ascii (text : String) : List UInt8 :=
  text.toList.map fun letter => letter.toNat.toUInt8

/-! ## Streams -/

inductive Poll (Value : Type) where
  | pending
  | ready (value : Value)
  deriving DecidableEq

inductive ErrorKind where
  | invalidData
  | writeZero
  | other
  deriving DecidableEq

structure IoError where
  kind : ErrorKind
  message : String
  deriving DecidableEq

/-- `Poll<std::io::Result<usize>>` -/
abbrev Answer := Poll (Except IoError ℕ)

/-- A stream that is written to; it says that it took no more than it was offered. -/
structure WebSocketIo (Inner : Type) where
  pollWrite : Inner → List UInt8 → Answer × Inner
  written_le : ∀ inner bytes written, (pollWrite inner bytes).1 = .ready (.ok written) →
    written ≤ bytes.length

/-- What the inner stream was offered, and its answer. -/
structure Exchange where
  offered : List UInt8
  answer : Answer

/-- The bytes of a buffer that a result accepts. -/
def accepted (buffer : List UInt8) : Answer → List UInt8
  | .ready (.ok written) => buffer.take written
  | _ => []

/-- The bytes that the inner stream took. -/
def Exchange.sent (exchange : Exchange) : List UInt8 :=
  accepted exchange.offered exchange.answer

structure ForwardProxyWrite where
  bytes : List UInt8
  offset : ℕ
  inputLength : ℕ

structure ForwardProxyStream (Inner : Type) where
  inner : Inner
  absoluteUrl : List UInt8
  pending : Option ForwardProxyWrite
  forwarded : Bool

def ForwardProxyStream.new {Inner : Type} (inner : Inner) (absoluteUrl : List UInt8) :
    ForwardProxyStream Inner :=
  ⟨inner, absoluteUrl, none, false⟩

/-! ## The first write -/

def forwardRequest (absoluteUrl request : List UInt8) : Except IoError (List UInt8) :=
  match position (ascii "\r\n\r\n") request with
  | none => .error ⟨.invalidData, "The WebSocket proxy request headers are incomplete."⟩
  | some index =>
      let headerEnd := index + 4
      match position (ascii "\r\n") request with
      | none => .error ⟨.invalidData, "The WebSocket proxy request line is invalid."⟩
      | some firstLineEnd =>
          if !(ascii "GET ").isPrefixOf (request.take firstLineEnd) then
            .error ⟨.invalidData, "The WebSocket proxy request must use GET."⟩
          else
            .ok (ascii "GET " ++ absoluteUrl ++ ascii " HTTP/1.1\r\n" ++
              (request.take headerEnd).drop (firstLineEnd + 2) ++ request.drop headerEnd)

section Writes

variable {Inner : Type} (io : WebSocketIo Inner)

/-- What a call of `poll_write` leaves of the inner stream and of the request, with its result and
what went on with the inner stream. -/
structure Forwarding (Inner : Type) where
  result : Answer
  inner : Inner
  pending : Option ForwardProxyWrite
  exchanges : List Exchange

/-- The loop of `poll_write`. -/
def forwardPending (inner : Inner) (pending : ForwardProxyWrite) : Forwarding Inner :=
  let offered := pending.bytes.drop pending.offset
  let next := (io.pollWrite inner offered).2
  match answered : (io.pollWrite inner offered).1 with
  | .ready (.ok 0) =>
      ⟨.ready (.error ⟨.writeZero, "The WebSocket proxy accepted no handshake bytes."⟩), next,
        some pending, [⟨offered, .ready (.ok 0)⟩]⟩
  | .ready (.ok (written + 1)) =>
      let advanced := { pending with offset := pending.offset + (written + 1) }
      if advanced.offset = advanced.bytes.length then
        ⟨.ready (.ok pending.inputLength), next, none, [⟨offered, .ready (.ok (written + 1))⟩]⟩
      else
        let later := forwardPending next advanced
        { later with exchanges := ⟨offered, .ready (.ok (written + 1))⟩ :: later.exchanges }
  | .ready (.error error) =>
      ⟨.ready (.error error), next, some pending, [⟨offered, .ready (.error error)⟩]⟩
  | .pending => ⟨.pending, next, some pending, [⟨offered, .pending⟩]⟩
termination_by pending.bytes.length - pending.offset
decreasing_by
  have fits := io.written_le _ _ _ answered
  rw [List.length_drop] at fits
  omega

/-- A call of `poll_write`: its result, the stream, and what went on with the inner stream. -/
structure Polled (Inner : Type) where
  result : Answer
  stream : ForwardProxyStream Inner
  exchanges : List Exchange

/-- The stream after the loop, which has forwarded the request if none is left. -/
def ForwardProxyStream.after (stream : ForwardProxyStream Inner) (forwarding : Forwarding Inner) :
    Polled Inner :=
  ⟨forwarding.result,
    { stream with
      inner := forwarding.inner
      pending := forwarding.pending
      forwarded := forwarding.pending.isNone },
    forwarding.exchanges⟩

def pollWrite (stream : ForwardProxyStream Inner) (buffer : List UInt8) : Polled Inner :=
  if stream.forwarded then
    let written := io.pollWrite stream.inner buffer
    ⟨written.1, { stream with inner := written.2 }, [⟨buffer, written.1⟩]⟩
  else
    match stream.pending with
    | some pending => stream.after (forwardPending io stream.inner pending)
    | none =>
        match forwardRequest stream.absoluteUrl buffer with
        | .error error => ⟨.ready (.error error), stream, []⟩
        | .ok bytes => stream.after (forwardPending io stream.inner ⟨bytes, 0, buffer.length⟩)

/-! ## Runs -/

/-- A call of the stream; reads, flushes and the shutdown only reach the inner stream. -/
inductive StreamCall (Inner : Type) where
  | write (buffer : List UInt8)
  | other (change : Inner → Inner)

def StreamCall.buffer? : StreamCall Inner → Option (List UInt8)
  | write buffer => some buffer
  | other _ => none

/-- A call of `poll_write`, as it went. -/
structure WritePoll where
  buffer : List UInt8
  result : Answer
  exchanges : List Exchange

/-- The calls of `poll_write` in a sequence of calls, as they go. -/
def writePolls : ForwardProxyStream Inner → List (StreamCall Inner) → List WritePoll
  | _, [] => []
  | stream, .other change :: calls =>
      writePolls { stream with inner := change stream.inner } calls
  | stream, .write buffer :: calls =>
      let polled := pollWrite io stream buffer
      ⟨buffer, polled.result, polled.exchanges⟩ :: writePolls polled.stream calls

end Writes

/-! ## The inner stream -/

section Inner

variable {Inner : Type} (io : WebSocketIo Inner)

/-- The inner stream gives these answers to what it is offered, and comes from one state to the
other. -/
def Exchanged : Inner → List Exchange → Inner → Prop
  | inner, [], last => last = inner
  | inner, exchange :: exchanges, last =>
      exchange.answer = (io.pollWrite inner exchange.offered).1 ∧
        Exchanged (io.pollWrite inner exchange.offered).2 exchanges last

/-- The calls of `poll_write` are those of a sequence of calls, with the answers that the inner
stream gives on the way. -/
def RanThrough : Inner → List (StreamCall Inner) → List WritePoll → Prop
  | _, [], polls => polls = []
  | inner, .other change :: calls, polls => RanThrough (change inner) calls polls
  | inner, .write buffer :: calls, polls =>
      ∃ poll later next, polls = poll :: later ∧ poll.buffer = buffer ∧
        Exchanged io inner poll.exchanges next ∧ RanThrough next calls later

theorem forwardPending_exchanged (inner : Inner) (pending : ForwardProxyWrite) :
    Exchanged io inner (forwardPending io inner pending).exchanges
      (forwardPending io inner pending).inner := by
  fun_induction forwardPending io inner pending with
  | case3 inner pending offered next written answered advanced incomplete later ih =>
      exact ⟨answered.symm, ih⟩
  | case1 inner pending offered next answered => exact ⟨answered.symm, rfl⟩
  | case2 inner pending offered next written answered => exact ⟨answered.symm, rfl⟩
  | case4 inner pending offered next error answered => exact ⟨answered.symm, rfl⟩
  | case5 inner pending offered next answered => exact ⟨answered.symm, rfl⟩

theorem pollWrite_exchanged (stream : ForwardProxyStream Inner) (buffer : List UInt8) :
    Exchanged io stream.inner (pollWrite io stream buffer).exchanges
      (pollWrite io stream buffer).stream.inner := by
  unfold pollWrite
  split
  case isTrue => exact ⟨rfl, rfl⟩
  case isFalse =>
      split
      · exact forwardPending_exchanged io _ _
      · split
        · exact rfl
        · exact forwardPending_exchanged io _ _

theorem writePolls_ranThrough (stream : ForwardProxyStream Inner)
    (calls : List (StreamCall Inner)) :
    RanThrough io stream.inner calls (writePolls io stream calls) := by
  induction calls generalizing stream with
  | nil => rfl
  | cons call calls ih =>
      cases call with
      | other change => exact ih { stream with inner := change stream.inner }
      | write buffer =>
          exact ⟨_, _, _, rfl, rfl, pollWrite_exchanged io stream buffer, ih _⟩

end Inner

/-! ## Exact writes -/

/-- The bytes that the inner stream took in a number of exchanges. -/
def sentBytes (exchanges : List Exchange) : List UInt8 :=
  exchanges.flatMap Exchange.sent

def exchangesOf (polls : List WritePoll) : List Exchange :=
  polls.flatMap WritePoll.exchanges

/-- Every time the inner stream is offered what it has not yet taken. -/
def OffersRest : List UInt8 → List Exchange → Prop
  | _, [] => True
  | rest, exchange :: exchanges =>
      exchange.offered = rest ∧ OffersRest (rest.drop exchange.sent.length) exchanges

/-- An answer of the inner stream that ends a call of `poll_write`, and its result. -/
inductive Interrupts : Answer → Answer → Prop where
  | pending : Interrupts .pending .pending
  | failed (error : IoError) : Interrupts (.ready (.error error)) (.ready (.error error))
  | zero : Interrupts (.ready (.ok 0))
      (.ready (.error ⟨.writeZero, "The WebSocket proxy accepted no handshake bytes."⟩))

/-- The call came back because of the last answer of the inner stream. -/
def WritePoll.Interrupted (poll : WritePoll) : Prop :=
  ∃ exchange, poll.exchanges.getLast? = some exchange ∧ Interrupts exchange.answer poll.result

/-- The inner stream was offered the buffer, and its answer is the result. -/
def WritePoll.PassedOn (poll : WritePoll) : Prop :=
  poll.exchanges = [⟨poll.buffer, poll.result⟩]

/-- Either part of the handshake is yet to be sent, or it has been sent as a whole by the one call
that reported the length of its buffer, and later calls went straight to the inner stream. -/
inductive ExactWrites (handshake : List UInt8) (inputLength : ℕ) (polls : List WritePoll) :
    Prop where
  | waiting (unsent : List UInt8) (missing : unsent ≠ [])
      (interrupted : ∀ poll ∈ polls, poll.Interrupted)
      (offers : OffersRest handshake (exchangesOf polls))
      (sent : sentBytes (exchangesOf polls) ++ unsent = handshake)
  | forwarded (earlier : List WritePoll) (last : WritePoll) (later : List WritePoll)
      (polls_eq : polls = earlier ++ last :: later)
      (interrupted : ∀ poll ∈ earlier, poll.Interrupted)
      (offers : OffersRest handshake (exchangesOf (earlier ++ [last])))
      (reported : last.result = .ready (.ok inputLength))
      (handshakeSent : sentBytes (exchangesOf (earlier ++ [last])) = handshake)
      (passedOn : ∀ poll ∈ later, poll.PassedOn)
      (sent : sentBytes (exchangesOf polls) =
        handshake ++ later.flatMap fun poll => accepted poll.buffer poll.result)

/-- A request of a handshake: a line that begins with GET and what follows it, a blank line
included. -/
structure IsHandshake (request requestLine rest : List UInt8) : Prop where
  request_eq : request = requestLine ++ (ascii "\r\n" ++ rest)
  isLine : ¬ ascii "\r\n" <:+: requestLine ++ ascii "\r"
  isGet : ascii "GET " <+: requestLine
  complete : ascii "\r\n\r\n" <:+: request

/-- The request with the URL of the proxy in its first line. -/
def rewritten (absoluteUrl rest : List UInt8) : List UInt8 :=
  ascii "GET " ++ absoluteUrl ++ ascii " HTTP/1.1\r\n" ++ rest

/-! ## The request -/

section Request

variable {request requestLine rest : List UInt8}

theorem position_lineEnd (handshake : IsHandshake request requestLine rest) :
    position (ascii "\r\n") request = some requestLine.length := by
  rw [position_eq_some_iff (by decide), handshake.request_eq]
  refine ⟨occursAt_append_length, ?_⟩
  intro earlier before occurs
  have letters : requestLine ++ (ascii "\r\n" ++ rest) =
      (requestLine ++ ascii "\r") ++ (ascii "\n" ++ rest) := by
    rw [List.append_assoc]
    rfl
  rw [letters] at occurs
  have lineEndLength : (ascii "\r\n").length = 2 := rfl
  have returnLength : (ascii "\r").length = 1 := rfl
  have inLine := occurs.of_append (by rw [List.length_append]; omega)
  exact handshake.isLine (inLine.isInfix.trans (List.drop_suffix _ _).isInfix)

theorem isSome_position_blankLine (handshake : IsHandshake request requestLine rest) :
    ∃ index, position (ascii "\r\n\r\n") request = some index := by
  apply Option.ne_none_iff_exists'.mp
  intro absent
  rcases handshake.complete with ⟨before, after, eq⟩
  apply (position_eq_none_iff (by decide)).mp absent before.length
  rw [← eq, List.append_assoc]
  exact occursAt_append_length

/-- Only the request line of a handshake is rewritten. -/
theorem forwardRequest_handshake (absoluteUrl : List UInt8)
    (handshake : IsHandshake request requestLine rest) :
    forwardRequest absoluteUrl request = .ok (rewritten absoluteUrl rest) := by
  have lineEnd := position_lineEnd handshake
  rcases isSome_position_blankLine handshake with ⟨index, blankLine⟩
  have atIndex := ((position_eq_some_iff (by decide)).mp blankLine).1
  have lineBefore : requestLine.length ≤ index := by
    by_contra later
    apply ((position_eq_some_iff (by decide)).mp lineEnd).2 index (by omega)
    exact List.IsPrefix.trans (by decide) atIndex
  have isGet : (ascii "GET ").isPrefixOf (request.take requestLine.length) = true := by
    rw [List.isPrefixOf_iff_prefix, handshake.request_eq, List.take_left]
    exact handshake.isGet
  have behind : (request.take (index + 4)).drop (requestLine.length + 2) ++
      request.drop (index + 4) = rest := by
    calc
      _ = (request.take (index + 4) ++ request.drop (index + 4)).drop (requestLine.length + 2) := by
        have fits := atIndex.length_le
        rw [List.length_drop] at fits
        have blankLineLength : (ascii "\r\n\r\n").length = 4 := rfl
        rw [List.drop_append_of_le_length]
        rw [List.length_take]
        omega
      _ = request.drop (requestLine.length + 2) := by rw [List.take_append_drop]
      _ = rest := by
        rw [handshake.request_eq, List.drop_append, List.drop_eq_nil_of_le (by omega)]
        rw [Nat.add_sub_cancel_left]
        rfl
  simp only [forwardRequest, blankLine, lineEnd, isGet]
  rw [if_neg (by simp), List.append_assoc, behind, rewritten]

theorem rewritten_ne_nil (absoluteUrl rest : List UInt8) : rewritten absoluteUrl rest ≠ [] := by
  simp [rewritten, ascii]

end Request

/-! ## Exchanges -/

section Exchanges

variable {first later : List Exchange}

theorem sentBytes_append : sentBytes (first ++ later) = sentBytes first ++ sentBytes later :=
  List.flatMap_append

theorem exchangesOf_cons {poll : WritePoll} {polls : List WritePoll} :
    exchangesOf (poll :: polls) = poll.exchanges ++ exchangesOf polls :=
  List.flatMap_cons

theorem OffersRest.append {handshake : List UInt8} (offers : OffersRest handshake first)
    (offersLater : OffersRest (handshake.drop (sentBytes first).length) later) :
    OffersRest handshake (first ++ later) := by
  induction first generalizing handshake with
  | nil => exact offersLater
  | cons exchange first ih =>
      refine ⟨offers.1, ih offers.2 ?_⟩
      rw [List.drop_drop, ← List.length_append]
      exact offersLater

end Exchanges

section Polls

variable {Inner : Type} (io : WebSocketIo Inner)

/-- What the loop makes of the rest of a request. -/
inductive Sends (pending : ForwardProxyWrite) (forwarding : Forwarding Inner) : Prop where
  | whole (noneLeft : forwarding.pending = none)
      (reported : forwarding.result = .ready (.ok pending.inputLength))
      (offers : OffersRest (pending.bytes.drop pending.offset) forwarding.exchanges)
      (sent : sentBytes forwarding.exchanges = pending.bytes.drop pending.offset)
  | part (later : ForwardProxyWrite) (left : forwarding.pending = some later)
      (sameBytes : later.bytes = pending.bytes)
      (sameLength : later.inputLength = pending.inputLength)
      (missing : later.offset < later.bytes.length)
      (interrupted : ∃ exchange, forwarding.exchanges.getLast? = some exchange ∧
        Interrupts exchange.answer forwarding.result)
      (offers : OffersRest (pending.bytes.drop pending.offset) forwarding.exchanges)
      (sent : sentBytes forwarding.exchanges ++ later.bytes.drop later.offset =
        pending.bytes.drop pending.offset)

theorem forwardPending_sends (inner : Inner) (pending : ForwardProxyWrite)
    (missing : pending.offset < pending.bytes.length) :
    Sends pending (forwardPending io inner pending) := by
  fun_induction forwardPending io inner pending with
  | case1 inner pending offered next answered =>
      exact .part pending rfl rfl rfl missing ⟨_, rfl, .zero⟩ ⟨rfl, trivial⟩ rfl
  | case2 inner pending offered next written answered advanced complete =>
      have whole : offered.take (written + 1) = offered := by
        apply List.take_of_length_le
        rw [List.length_drop]
        have advancedEq : pending.offset + (written + 1) = pending.bytes.length := complete
        omega
      refine .whole rfl rfl ⟨rfl, trivial⟩ ?_
      rw [sentBytes, List.flatMap_singleton]
      exact whole
  | case3 inner pending offered next written answered advanced incomplete later ih =>
      have fits := io.written_le _ _ _ answered
      rw [List.length_drop] at fits
      have advancedOffset : advanced.offset = pending.offset + (written + 1) := rfl
      have advancedBytes : advanced.bytes = pending.bytes := rfl
      have stillMissing : advanced.offset < advanced.bytes.length := by
        apply lt_of_le_of_ne _ incomplete
        rw [advancedOffset, advancedBytes]
        omega
      have offeredNext : advanced.bytes.drop advanced.offset = offered.drop (written + 1) := by
        rw [advancedOffset, advancedBytes, List.drop_drop]
      have offers (rest : OffersRest (advanced.bytes.drop advanced.offset) later.exchanges) :
          OffersRest (pending.bytes.drop pending.offset)
            (⟨offered, .ready (.ok (written + 1))⟩ :: later.exchanges) := by
        refine ⟨rfl, ?_⟩
        have taken : (offered.take (written + 1)).length = written + 1 := by
          rw [List.length_take, List.length_drop]
          omega
        change OffersRest (offered.drop (offered.take (written + 1)).length) later.exchanges
        rw [taken, ← offeredNext]
        exact rest
      cases ih stillMissing with
      | whole noneLeft reported offersLater sent =>
          refine .whole noneLeft reported (offers offersLater) ?_
          rw [sentBytes, List.flatMap_cons, ← sentBytes, sent, offeredNext]
          exact List.take_append_drop _ _
      | part last left sameBytes sameLength lastMissing interrupted offersLater sent =>
          refine .part last left sameBytes sameLength lastMissing ?_ (offers offersLater) ?_
          · rcases interrupted with ⟨exchange, isLast, interrupts⟩
            exact ⟨exchange, by rw [List.getLast?_cons, isLast]; rfl, interrupts⟩
          · rw [sentBytes, List.flatMap_cons, ← sentBytes, List.append_assoc, sent, offeredNext]
            exact List.take_append_drop _ _
  | case4 inner pending offered next error answered =>
      exact .part pending rfl rfl rfl missing ⟨_, rfl, .failed error⟩ ⟨rfl, trivial⟩ rfl
  | case5 inner pending offered next answered =>
      exact .part pending rfl rfl rfl missing ⟨_, rfl, .pending⟩ ⟨rfl, trivial⟩ rfl

variable {io} {stream : ForwardProxyStream Inner} {calls : List (StreamCall Inner)}

theorem writePolls_forwarded (forwarded : stream.forwarded = true) :
    (∀ poll ∈ writePolls io stream calls, poll.PassedOn) ∧
      sentBytes (exchangesOf (writePolls io stream calls)) =
        (writePolls io stream calls).flatMap fun poll => accepted poll.buffer poll.result := by
  induction calls generalizing stream with
  | nil => simp [writePolls, exchangesOf, sentBytes]
  | cons call calls ih =>
      cases call with
      | other change => exact @ih { stream with inner := change stream.inner } forwarded
      | write buffer =>
          have polled : pollWrite io stream buffer =
              ⟨(io.pollWrite stream.inner buffer).1,
                { stream with inner := (io.pollWrite stream.inner buffer).2 },
                [⟨buffer, (io.pollWrite stream.inner buffer).1⟩]⟩ := by
            rw [pollWrite, if_pos forwarded]
          have rest := @ih { stream with inner := (io.pollWrite stream.inner buffer).2 } forwarded
          rw [writePolls, polled]
          refine ⟨List.forall_mem_cons.mpr ⟨rfl, rest.1⟩, ?_⟩
          rw [exchangesOf_cons, sentBytes_append, rest.2, List.flatMap_cons]
          simp [sentBytes, Exchange.sent]

theorem ExactWrites.cons {bytes rest : List UInt8} {inputLength : ℕ} {poll : WritePoll}
    {polls : List WritePoll} (interrupted : poll.Interrupted)
    (offers : OffersRest bytes poll.exchanges) (sent : sentBytes poll.exchanges ++ rest = bytes)
    (exact : ExactWrites rest inputLength polls) :
    ExactWrites bytes inputLength (poll :: polls) := by
  have restEq : bytes.drop (sentBytes poll.exchanges).length = rest := by
    rw [← sent, List.drop_left]
  cases exact with
  | waiting unsent missing allInterrupted offersLater sentLater =>
      refine .waiting unsent missing (List.forall_mem_cons.mpr ⟨interrupted, allInterrupted⟩) ?_ ?_
      · rw [exchangesOf_cons]
        exact offers.append (by rw [restEq]; exact offersLater)
      · rw [exchangesOf_cons, sentBytes_append, List.append_assoc, sentLater, sent]
  | forwarded earlier last later pollsEq allInterrupted offersLater reported handshakeSent passedOn
      sentLater =>
      refine .forwarded (poll :: earlier) last later (by rw [pollsEq, List.cons_append])
        (List.forall_mem_cons.mpr ⟨interrupted, allInterrupted⟩) ?_ reported ?_ passedOn ?_
      · rw [List.cons_append, exchangesOf_cons]
        exact offers.append (by rw [restEq]; exact offersLater)
      · rw [List.cons_append, exchangesOf_cons, sentBytes_append, handshakeSent, sent]
      · rw [exchangesOf_cons, sentBytes_append, sentLater, ← List.append_assoc, sent]

/-- While part of a request is pending, what is left of it is written exactly. -/
theorem writePolls_pending {pending : ForwardProxyWrite} (isPending : stream.pending = some pending)
    (notForwarded : stream.forwarded = false) (missing : pending.offset < pending.bytes.length) :
    ExactWrites (pending.bytes.drop pending.offset) pending.inputLength
      (writePolls io stream calls) := by
  induction calls generalizing stream pending with
  | nil =>
      refine .waiting (pending.bytes.drop pending.offset) ?_ (by simp [writePolls]) trivial rfl
      intro noneMissing
      have length := congrArg List.length noneMissing
      rw [List.length_drop, List.length_nil] at length
      omega
  | cons call calls ih =>
      cases call with
      | other change => exact ih isPending notForwarded missing
      | write buffer =>
          have polled : pollWrite io stream buffer =
              stream.after (forwardPending io stream.inner pending) := by
            rw [pollWrite, if_neg (by simp [notForwarded]), isPending]
          rw [writePolls, polled]
          cases forwardPending_sends io stream.inner pending missing with
          | whole noneLeft reported offers sent =>
              have forwarded : (stream.after
                  (forwardPending io stream.inner pending)).stream.forwarded = true := by
                simp [ForwardProxyStream.after, noneLeft]
              have rest := @writePolls_forwarded Inner io _ calls forwarded
              refine .forwarded [] _ _ rfl (by simp) ?_ reported ?_ rest.1 ?_
              · simpa [exchangesOf, ForwardProxyStream.after] using offers
              · simpa [exchangesOf, ForwardProxyStream.after] using sent
              · rw [exchangesOf_cons, sentBytes_append, rest.2]
                exact congrArg (· ++ _) sent
          | part later left sameBytes sameLength lastMissing interrupted offers sent =>
              have rest := @ih (stream.after (forwardPending io stream.inner pending)).stream later
                left (by simp [ForwardProxyStream.after, left]) lastMissing
              rw [sameLength] at rest
              exact .cons interrupted offers sent rest

/-- The stream after a first call that sent nothing of the rewritten request. -/
def startedStream (inner : Inner) (absoluteUrl request rest : List UInt8) :
    ForwardProxyStream Inner where
  inner := inner
  absoluteUrl := absoluteUrl
  pending := some ⟨rewritten absoluteUrl rest, 0, request.length⟩
  forwarded := false

theorem writePolls_new {inner : Inner} {absoluteUrl request requestLine rest : List UInt8}
    (handshake : IsHandshake request requestLine rest)
    (first : (calls.filterMap StreamCall.buffer?).head? = some request) :
    writePolls io (.new inner absoluteUrl) calls =
      writePolls io (startedStream inner absoluteUrl request rest) calls := by
  induction calls generalizing inner with
  | nil => simp at first
  | cons call calls ih =>
      cases call with
      | other change => exact ih first
      | write buffer =>
          have isRequest : buffer = request := by simpa [StreamCall.buffer?] using first
          subst isRequest
          rw [writePolls, writePolls]
          have polled : pollWrite io (.new inner absoluteUrl) buffer =
              pollWrite io (startedStream inner absoluteUrl buffer rest) buffer := by
            simp only [pollWrite, ForwardProxyStream.new, startedStream,
              forwardRequest_handshake _ handshake]
            rfl
          rw [polled]

end Polls

/-- A stream that takes three bytes at a time, and nothing every other time. -/
def slowIo : WebSocketIo ℕ where
  pollWrite count bytes :=
    (if count % 2 = 0 then .pending else .ready (.ok (min 3 bytes.length)), count + 1)
  written_le := by
    intro count bytes written took
    dsimp only at took
    split at took
    case isTrue => cases took
    case isFalse =>
      cases took
      exact Nat.min_le_right _ _

end Brunomnia.Streaming.ForwardProxy
