import Brunomnia.OAuthCallback.Listener

/-!
# Requests in the bytes of a connection

What a peer sent up to the end of the head or to its end of the stream is a request; it asks for
a target if its first line says so. The listener reads the target of exactly the requests within
its limits, and collects for each name the last value of the URL.
-/

namespace Brunomnia.OAuthCallback

open Codegen (Text)
open Library Multipart
open Streaming (textLines stripCarriageReturn)

/-! ## What a peer asks for -/

/-- The bytes that come before the reading stops: at the chunk that completes the head, or where
the peer ends the stream. -/
def Requests (reads : List Read) (request : List UInt8) : Prop :=
  ∃ chunks rest, reads = chunks.map Read.data ++ rest ∧ [] ∉ chunks ∧ request = chunks.flatten ∧
    (∀ earlier, earlier <+: chunks → earlier ≠ chunks → ¬ endOfHead <:+: earlier.flatten) ∧
    (endOfHead <:+: request ∨ rest.head? = some (.data []))

/-- The bytes start with `GET` and a target, with blanks but no line feed around `GET`. -/
def AsksFor (request : List UInt8) (target : Text) : Prop :=
  ∃ lead gap rest, request = utf8 (lead ++ ("GET".toList ++ (gap ++ (target ++ rest)))) ∧
    (∀ letter ∈ lead ++ gap, isRustWhitespace letter = true ∧ letter ≠ '\n') ∧ gap ≠ [] ∧
    IsWord isRustWhitespace target ∧ ∀ letter ∈ rest.head?, isRustWhitespace letter = true

/-- The peer sends a request for a target, within the limits of the listener. -/
def SendsGet (connection : Connection) (target : Text) : Prop :=
  ∃ request, Requests connection.reads request ∧ request.length < 16_384 ∧
    AsksFor request target ∧ target.head? = some '/' ∧ (utf8 target).length ≤ 8_192

/-- For each name the value of the last pair with it. -/
def HoldsPairs (parameters : Parameters) (pairs : List (Text × Text)) : Prop :=
  ∀ name value, parameters.read name = some value ↔
    ∃ before after, pairs = before ++ (name, value) :: after ∧ ∀ pair ∈ after, pair.1 ≠ name

/-- The pairs of the query, and then those of the fragment. -/
def Url.pairs (parser : UrlParser) (url : Url) : List (Text × Text) :=
  url.query.elim [] parser.form ++ url.fragment.elim [] parser.form

/-! ## The reading of a request -/

/-- The same behind bytes that came before. -/
def RequestsAfter (before : List UInt8) (reads : List Read) (request : List UInt8) : Prop :=
  ∃ chunks rest, reads = chunks.map Read.data ++ rest ∧ [] ∉ chunks ∧
    request = before ++ chunks.flatten ∧
    (∀ earlier, earlier <+: chunks → earlier ≠ chunks →
      ¬ endOfHead <:+: before ++ earlier.flatten) ∧
    (endOfHead <:+: request ∨ rest.head? = some (.data []))

section Reading

variable {before request chunk : List UInt8} {reads : List Read} {read : Read}

theorem requestsAfter_stop (noHead : ¬ endOfHead <:+: before)
    (stops : ∀ chunk, read = .data chunk → chunk = []) :
    RequestsAfter before (read :: reads) request ↔ read = .data [] ∧ request = before := by
  constructor
  · rintro ⟨chunks, rest, split, noEmpty, isRequest, _, ends⟩
    cases chunks with
    | nil =>
        rw [List.map_nil, List.nil_append] at split
        rw [List.flatten_nil, List.append_nil] at isRequest
        subst split isRequest
        exact ⟨ends.elim (fun hasHead => absurd hasHead noHead) Option.some.inj, rfl⟩
    | cons chunk chunks =>
        rw [stops chunk (List.cons.inj split).1] at noEmpty
        exact absurd List.mem_cons_self noEmpty
  · rintro ⟨rfl, rfl⟩
    exact ⟨[], _, rfl, by simp, by simp, by simp, .inr rfl⟩

/-- The chunk that completes the head is the last one. -/
theorem requestsAfter_head (noHead : ¬ endOfHead <:+: before) (nonempty : chunk ≠ [])
    (hasHead : endOfHead <:+: before ++ chunk) :
    RequestsAfter before (.data chunk :: reads) request ↔ request = before ++ chunk := by
  constructor
  · rintro ⟨chunks, rest, split, _, isRequest, earliest, ends⟩
    cases chunks with
    | nil =>
        rw [List.map_nil, List.nil_append] at split
        rw [List.flatten_nil, List.append_nil] at isRequest
        subst split isRequest
        rcases ends with again | closed
        · exact absurd again noHead
        · exact absurd (Read.data.inj (Option.some.inj closed)) nonempty
    | cons first chunks =>
        obtain rfl : chunk = first := Read.data.inj (List.cons.inj split).1
        by_cases more : [chunk] = chunk :: chunks
        · rw [isRequest, ← more, List.flatten_singleton]
        · have tooEarly := earliest [chunk] (List.prefix_cons_inj chunk |>.mpr List.nil_prefix) more
          rw [List.flatten_singleton] at tooEarly
          exact absurd hasHead tooEarly
  · rintro rfl
    refine ⟨[chunk], reads, rfl, ?_, by simp, ?_, .inl hasHead⟩
    · simpa using Ne.symm nonempty
    · intro earlier isPrefix proper
      rcases List.prefix_cons_iff.mp isPrefix with rfl | ⟨tail, rfl, isTail⟩
      · simpa using noHead
      · rw [List.prefix_nil.mp isTail] at proper
        exact absurd rfl proper

theorem requestsAfter_chunk (noHead : ¬ endOfHead <:+: before) (nonempty : chunk ≠ []) :
    ¬ endOfHead <:+: before ++ chunk →
      (RequestsAfter before (.data chunk :: reads) request ↔
        RequestsAfter (before ++ chunk) reads request) := by
  intro goesOn
  constructor
  · rintro ⟨chunks, rest, split, noEmpty, isRequest, earliest, ends⟩
    cases chunks with
    | nil =>
        rw [List.map_nil, List.nil_append] at split
        rw [List.flatten_nil, List.append_nil] at isRequest
        subst split isRequest
        rcases ends with again | closed
        · exact absurd again noHead
        · exact absurd (Read.data.inj (Option.some.inj closed)) nonempty
    | cons first chunks =>
        simp only [List.map_cons, List.cons_append, List.cons.injEq, Read.data.injEq] at split
        rcases split with ⟨rfl, split⟩
        refine ⟨chunks, rest, split, fun empty => noEmpty (List.mem_cons_of_mem _ empty), ?_, ?_,
          ends⟩
        · rw [isRequest, List.flatten_cons, List.append_assoc]
        · intro earlier isPrefix proper
          have tooEarly := earliest (chunk :: earlier)
            (List.prefix_cons_inj chunk |>.mpr isPrefix) (by simpa using proper)
          rwa [List.flatten_cons, ← List.append_assoc] at tooEarly
  · rintro ⟨chunks, rest, rfl, noEmpty, isRequest, earliest, ends⟩
    refine ⟨chunk :: chunks, rest, rfl, ?_, ?_, ?_, ends⟩
    · rw [List.mem_cons]
      exact not_or.mpr ⟨Ne.symm nonempty, noEmpty⟩
    · rw [isRequest, List.flatten_cons, List.append_assoc]
    · intro earlier isPrefix proper
      rcases List.prefix_cons_iff.mp isPrefix with rfl | ⟨tail, rfl, isTail⟩
      · simpa using noHead
      · rw [List.flatten_cons, ← List.append_assoc]
        exact earliest tail isTail (by simpa using proper)

theorem readRequest_of_full (full : maxRequestBytes ≤ request.length) :
    readRequest reads request = .ok request := by
  cases reads with
  | nil => simp only [readRequest, ge_iff_le, full, if_true]
  | cons read reads => cases read <;> simp only [readRequest, ge_iff_le, full, if_true]

/-- The loop reads what is requested, unless that is too long. -/
theorem readRequest_iff (noHead : ¬ endOfHead <:+: before)
    (room : before.length < maxRequestBytes) (small : request.length < maxRequestBytes) :
    readRequest reads before = .ok request ↔ RequestsAfter before reads request := by
  have goesOn : ¬ before.length ≥ maxRequestBytes := Nat.not_le.mpr room
  induction reads generalizing before with
  | nil =>
      simp only [readRequest, goesOn, if_false, reduceCtorEq, false_iff]
      rintro ⟨chunks, rest, split, _, rfl, _, ends⟩
      rcases List.append_eq_nil_iff.mp split.symm with ⟨noChunks, rfl⟩
      rw [List.map_eq_nil_iff.mp noChunks] at ends
      rcases ends with hasHead | closed
      · exact noHead (by simpa using hasHead)
      · cases closed
  | cons read reads ih =>
      cases read with
      | timedOut =>
          rw [requestsAfter_stop noHead (by simp)]
          simp only [readRequest, goesOn, if_false, reduceCtorEq, false_and]
      | failed error =>
          rw [requestsAfter_stop noHead (by simp)]
          simp only [readRequest, goesOn, if_false, reduceCtorEq, false_and]
      | data chunk =>
          simp only [readRequest, goesOn, if_false]
          by_cases empty : chunk = []
          · rw [if_pos empty, requestsAfter_stop noHead (by simp [empty]), empty]
            simp [eq_comm]
          · rw [if_neg empty]
            by_cases headEnds : endOfHead <:+: before ++ chunk
            · rw [requestsAfter_head noHead empty headEnds, hasHead, decide_eq_true headEnds,
                if_pos rfl, Except.ok.injEq, eq_comm]
            · rw [requestsAfter_chunk noHead empty headEnds, hasHead, decide_eq_false headEnds,
                if_neg (by simp)]
              by_cases full : maxRequestBytes ≤ (before ++ chunk).length
              · rw [readRequest_of_full full]
                refine iff_of_false ?_ ?_
                · rintro ⟨⟩
                  omega
                · rintro ⟨chunks, _, _, _, rfl, _⟩
                  rw [List.length_append] at small
                  omega
              · exact ih headEnds (Nat.not_le.mp full) full

end Reading

theorem requests_iff {reads : List Read} {request : List UInt8}
    (small : request.length < maxRequestBytes) :
    readRequest reads [] = .ok request ↔ Requests reads request := by
  have noHead : ¬ endOfHead <:+: [] := by decide
  rw [readRequest_iff noHead (by decide) small]
  simp only [RequestsAfter, List.nil_append, Requests]

/-! ## The first line -/

theorem words_stripCarriageReturn (line : Text) :
    words isRustWhitespace (stripCarriageReturn '\r' line) = words isRustWhitespace line := by
  rw [stripCarriageReturn]
  split
  case isFalse => rfl
  case isTrue ends =>
      rcases List.getLast?_eq_some_iff.mp ends with ⟨front, rfl⟩
      rw [List.dropLast_concat, words_append_cons front (by decide), words_nil, List.append_nil]

theorem words_firstLine {text : Text} (nonempty : text ≠ []) :
    ∃ line, (textLines text).head? = some line ∧
      words isRustWhitespace line =
        words isRustWhitespace (text.takeWhile fun letter => letter ≠ '\n') := by
  have plain (front : Text) (noFeed : '\n' ∉ front) :
      ∀ letter ∈ front, decide (letter ≠ '\n') = true := by
    intro letter letterMem
    simpa using ne_of_mem_of_not_mem letterMem noFeed
  by_cases hasFeed : '\n' ∈ text
  · rcases List.eq_append_cons_of_mem hasFeed with ⟨front, rest, rfl, noFeed⟩
    refine ⟨stripCarriageReturn '\r' front, ?_, ?_⟩
    · simp [textLines, splitEnds_append, splitEnds_of_notMem noFeed]
    · rw [words_stripCarriageReturn, List.takeWhile_append_of_pos (plain front noFeed),
        List.takeWhile_cons_of_neg (by simp), List.append_nil]
  · refine ⟨text, ?_, ?_⟩
    · simp [textLines, splitEnds_of_notMem hasFeed, nonempty]
    · rw [List.takeWhile_eq_self_iff.mpr (plain text hasFeed)]

theorem isWord_get : IsWord isRustWhitespace "GET".toList := by
  simp [IsWord, isRustWhitespace]

theorem noFeed_of_isWord {word : Text} (isWord : IsWord isRustWhitespace word) :
    ∀ letter ∈ word, decide (letter ≠ '\n') = true := by
  intro letter letterMem
  rw [decide_eq_true_eq]
  rintro rfl
  exact absurd (isWord.2 _ letterMem) (by decide)

theorem get_of_words {text target : Text} {more : List Text}
    (split : words isRustWhitespace (text.takeWhile fun letter => letter ≠ '\n') =
      "GET".toList :: target :: more) :
    ∃ lead gap rest, text = lead ++ ("GET".toList ++ (gap ++ (target ++ rest))) ∧
      (∀ letter ∈ lead ++ gap, isRustWhitespace letter = true ∧ letter ≠ '\n') ∧ gap ≠ [] ∧
      IsWord isRustWhitespace target ∧
      ∀ letter ∈ rest.head?, isRustWhitespace letter = true := by
  rcases words_eq_cons_iff.mp split with ⟨lead, behind, isLine, leadBlank, _, ends, split⟩
  rcases words_eq_cons_iff.mp split with ⟨gap, rest, rfl, gapBlank, isTarget, restEnds, _⟩
  have whole := @List.takeWhile_append_dropWhile _ (fun letter => decide (letter ≠ '\n')) text
  have inLine : ∀ letter ∈ lead ++ gap, letter ≠ '\n' := by
    intro letter letterMem
    have inTaken : letter ∈ text.takeWhile fun letter => letter ≠ '\n' := by
      rw [isLine]
      rcases List.mem_append.mp letterMem with inLead | inGap
      · exact List.mem_append_left _ inLead
      · exact List.mem_append_right _
          (List.mem_append_right _ (List.mem_append_left _ inGap))
    simpa using List.mem_takeWhile_imp inTaken
  refine ⟨lead, gap, rest ++ text.dropWhile fun letter => letter ≠ '\n', ?_, ?_, ?_, isTarget, ?_⟩
  · rw [isLine] at whole
    simpa only [List.append_assoc] using whole.symm
  · intro letter letterMem
    refine ⟨?_, inLine letter letterMem⟩
    rcases List.mem_append.mp letterMem with inLead | inGap
    · exact leadBlank letter inLead
    · exact gapBlank letter inGap
  · rintro rfl
    rcases List.exists_cons_of_ne_nil isTarget.1 with ⟨first, target', rfl⟩
    have blank := ends first (by simp)
    rw [isTarget.2 first List.mem_cons_self] at blank
    cases blank
  · cases rest with
    | cons first rest => simpa using restEnds
    | nil =>
        intro letter isFirst
        rw [List.nil_append] at isFirst
        have dropped := List.head?_dropWhile_not (fun letter => decide (letter ≠ '\n')) text
        rw [Option.mem_def.mp isFirst] at dropped
        have isFeed : letter = '\n' := by simpa using dropped
        rw [isFeed]
        decide

theorem words_of_get {lead gap rest target : Text}
    (blanks : ∀ letter ∈ lead ++ gap, isRustWhitespace letter = true ∧ letter ≠ '\n')
    (hasGap : gap ≠ []) (isTarget : IsWord isRustWhitespace target)
    (ends : ∀ letter ∈ rest.head?, isRustWhitespace letter = true) :
    ∃ more, words isRustWhitespace
      ((lead ++ ("GET".toList ++ (gap ++ (target ++ rest)))).takeWhile
        fun letter => letter ≠ '\n') = "GET".toList :: target :: more := by
  have leadBlank : ∀ letter ∈ lead, isRustWhitespace letter = true := fun letter letterMem =>
    (blanks letter (List.mem_append_left _ letterMem)).1
  have gapBlank : ∀ letter ∈ gap, isRustWhitespace letter = true := fun letter letterMem =>
    (blanks letter (List.mem_append_right _ letterMem)).1
  have leadPlain : ∀ letter ∈ lead, decide (letter ≠ '\n') = true := fun letter letterMem =>
    by simpa using (blanks letter (List.mem_append_left _ letterMem)).2
  have gapPlain : ∀ letter ∈ gap, decide (letter ≠ '\n') = true := fun letter letterMem =>
    by simpa using (blanks letter (List.mem_append_right _ letterMem)).2
  refine ⟨words isRustWhitespace (rest.takeWhile fun letter => letter ≠ '\n'), ?_⟩
  rw [List.takeWhile_append_of_pos leadPlain,
    List.takeWhile_append_of_pos (noFeed_of_isWord isWord_get),
    List.takeWhile_append_of_pos gapPlain,
    List.takeWhile_append_of_pos (noFeed_of_isWord isTarget)]
  refine words_eq_cons_iff.mpr ⟨lead, _, rfl, leadBlank, isWord_get, ?_,
    words_eq_cons_iff.mpr ⟨gap, _, rfl, gapBlank, isTarget, ?_, rfl⟩⟩
  · rcases List.exists_cons_of_ne_nil hasGap with ⟨first, gap', rfl⟩
    intro letter isFirst
    obtain rfl : first = letter := by simpa using isFirst
    exact gapBlank _ List.mem_cons_self
  · intro letter isFirst
    cases rest with
    | nil => cases isFirst
    | cons first rest =>
        by_cases isFeed : first = '\n'
        · simp [isFeed] at isFirst
        · rw [List.takeWhile_cons_of_pos (by simpa using isFeed)] at isFirst
          exact ends letter isFirst

/-! ## The target -/

theorem targetOf_eq_ok {line : List Text} {target : Text} :
    targetOf line = .ok target ↔ ∃ rest, line = "GET".toList :: target :: rest ∧
      target.head? = some '/' ∧ (utf8 target).length ≤ maxUrlBytes := by
  cases line with
  | nil => simp [targetOf]
  | cons method rest =>
      cases rest with
      | nil =>
          simp only [targetOf]
          split <;> simp
      | cons first rest =>
          simp only [targetOf]
          split
          case isTrue notGet =>
              simp only [reduceCtorEq, false_iff, not_exists, not_and]
              rintro _ ⟨isGet, _⟩
              exact absurd rfl notGet
          case isFalse isGet =>
              rw [not_not] at isGet
              subst isGet
              split
              case isTrue outside =>
                  simp only [reduceCtorEq, false_iff, not_exists, not_and]
                  rintro _ ⟨⟩ slash fits
                  rcases outside with noSlash | long
                  · exact noSlash slash
                  · omega
              case isFalse inside =>
                  rw [not_or, not_not, Nat.not_lt] at inside
                  simp only [Except.ok.injEq]
                  constructor
                  · rintro rfl
                    exact ⟨rest, rfl, inside⟩
                  · rintro ⟨_, ⟨⟩, _⟩
                    rfl

theorem readTarget_eq_ok {connection : Connection} {target : Text} :
    readTarget connection = .ok target ↔
      ∃ request line, readRequest connection.reads [] = .ok request ∧
        requestLine request = .ok line ∧ targetOf line = .ok target := by
  simp only [readTarget]
  cases read : readRequest connection.reads [] with
  | error failure => simp [bind, Except.bind]
  | ok request =>
      cases line : requestLine request with
      | error failure => simp [line, bind, Except.bind]
      | ok words => simp [line, bind, Except.bind]

theorem requestLine_eq_ok {request : List UInt8} {line : List Text} :
    requestLine request = .ok line ↔ request.length < maxRequestBytes ∧
      ∃ text, text ≠ [] ∧ request = utf8 text ∧
        line = words isRustWhitespace (text.takeWhile fun letter => letter ≠ '\n') := by
  simp only [requestLine]
  constructor
  · intro accepted
    split at accepted
    case isTrue => cases accepted
    case isFalse small =>
    refine ⟨Nat.not_le.mp small, ?_⟩
    split at accepted
    case h_1 => cases accepted
    case h_2 text decoded =>
    split at accepted
    case h_1 => cases accepted
    case h_2 first isFirst =>
        have nonempty : text ≠ [] := by
          rintro rfl
          cases isFirst
        rcases words_firstLine nonempty with ⟨other, isOther, same⟩
        obtain rfl : first = other := Option.some.inj (isFirst.symm.trans isOther)
        exact ⟨text, nonempty, (utf8_of_fromUtf8 decoded).symm,
          (Except.ok.inj accepted).symm.trans same⟩
  · rintro ⟨small, text, nonempty, rfl, rfl⟩
    rcases words_firstLine nonempty with ⟨first, isFirst, same⟩
    rw [if_neg (Nat.not_le.mpr small), fromUtf8_utf8]
    simp only [isFirst]
    rw [← same]
    rfl

theorem readTarget_iff {connection : Connection} {target : Text} :
    readTarget connection = .ok target ↔ SendsGet connection target := by
  rw [readTarget_eq_ok]
  constructor
  · rintro ⟨request, line, read, lineRead, isTarget⟩
    rcases requestLine_eq_ok.mp lineRead with ⟨small, text, _, rfl, rfl⟩
    rcases targetOf_eq_ok.mp isTarget with ⟨more, split, slash, fits⟩
    rcases get_of_words split with ⟨lead, gap, rest, rfl, asks⟩
    exact ⟨_, (requests_iff small).mp read, small, ⟨lead, gap, rest, rfl, asks⟩, slash, fits⟩
  · rintro ⟨request, sent, small, ⟨lead, gap, rest, rfl, blanks, hasGap, isTarget, ends⟩, slash,
      fits⟩
    rcases words_of_get blanks hasGap isTarget ends with ⟨more, split⟩
    refine ⟨_, _, (requests_iff small).mpr sent,
      requestLine_eq_ok.mpr ⟨small, _, by simp, rfl, rfl⟩,
      targetOf_eq_ok.mpr ⟨more, split, slash, fits⟩⟩

/-! ## Parameters -/

/-- The value of the last pair with a name is read, else the one from before. -/
theorem read_extend {parameters : Parameters} {pairs : List (Text × Text)} {name value : Text} :
    (extend parameters pairs).read name = some value ↔
      (∃ before after, pairs = before ++ (name, value) :: after ∧ ∀ pair ∈ after, pair.1 ≠ name) ∨
        parameters.read name = some value ∧ ∀ pair ∈ pairs, pair.1 ≠ name := by
  induction pairs generalizing parameters with
  | nil => simp [extend]
  | cons pair pairs ih =>
      have next : extend parameters (pair :: pairs) =
          extend (parameters.write pair.1 pair.2) pairs := rfl
      rw [next, ih]
      constructor
      · rintro (⟨before, after, rfl, last⟩ | ⟨found, others⟩)
        · exact .inl ⟨pair :: before, after, rfl, last⟩
        · by_cases same : name = pair.1
          · subst same
            rw [Store.read_write_self, Option.some.injEq] at found
            exact .inl ⟨[], pairs, by rw [← found, List.nil_append], others⟩
          · rw [Store.read_write_of_ne same] at found
            exact .inr ⟨found, List.forall_mem_cons.mpr ⟨Ne.symm same, others⟩⟩
      · rintro (⟨before, after, split, last⟩ | ⟨found, others⟩)
        · cases before with
          | nil =>
              rcases List.cons.inj split with ⟨rfl, rfl⟩
              exact .inr ⟨Store.read_write_self _ _ _, last⟩
          | cons first before =>
              exact .inl ⟨before, after, (List.cons.inj split).2, last⟩
        · rcases List.forall_mem_cons.mp others with ⟨different, others⟩
          exact .inr ⟨(Store.read_write_of_ne (Ne.symm different)).trans found, others⟩

theorem Url.queryPairs_eq (parser : UrlParser) (url : Url) :
    url.queryPairs parser = url.query.elim [] parser.form := by
  rw [Url.queryPairs]
  cases url.query <;> rfl

theorem extend_append (parameters : Parameters) (pairs more : List (Text × Text)) :
    extend parameters (pairs ++ more) = extend (extend parameters pairs) more :=
  List.foldl_append

theorem holdsPairs_urlParameters (parser : UrlParser) (url : Url) :
    HoldsPairs (urlParameters parser url) (url.pairs parser) := by
  have collected : urlParameters parser url = extend .empty (url.pairs parser) := by
    simp only [urlParameters, Url.pairs, Url.queryPairs_eq, extend_append]
    cases url.fragment <;> rfl
  intro name value
  rw [collected, read_extend]
  exact or_iff_left fun before => nomatch before.1

end Brunomnia.OAuthCallback
