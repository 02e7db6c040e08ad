import Brunomnia.McpHttp.Streams

/-!
# Event streams are unique

There are never more entries than there is room for. A stream that runs and was not told to cancel
has the entry of its session, or its entry was taken out by the start of another stream, which is
about to tell it. Every step takes out only what it should.
-/

namespace Brunomnia.McpHttp

open Library

variable {Channel : Type}

/-! ## What is expected -/

/-- The stream has the entry of its session. -/
def Registered (system : System Channel) (number : ℕ) (stream : Stream Channel) : Prop :=
  ∃ entry, system.active.read stream.sessionKey = some entry ∧ entry.stream = number

/-- The start of another stream has taken the entry out and is about to tell the stream. -/
def Taken (system : System Channel) (number : ℕ) : Prop :=
  ∃ (other : ℕ) (starting : Stream Channel) (taken : List ℕ),
    system.streams[other]? = some starting ∧ starting.phase = .inserted taken ∧ number ∈ taken

/-- A stream that runs and was not told to cancel is registered. -/
def RunningRegistered (system : System Channel) : Prop :=
  ∀ number stream, system.streams[number]? = some stream → stream.phase = .running →
    stream.cancelled = false → Registered system number stream

structure Sound (system : System Channel) : Prop where
  roomy : system.active.entries.length ≤ maxActiveStreams
  runningKnown : ∀ number stream, system.streams[number]? = some stream →
    stream.phase = .running → stream.cancelled = false →
      Registered system number stream ∨ Taken system number

/-- The end of a stream does not unregister another one. -/
def KeepsOthers (system : System Channel) (action : Action Channel) : Prop :=
  ∀ number, action = .unregister number → ∀ sessionKey entry,
    system.active.read sessionKey = some entry → entry.stream ≠ number →
      (step system action).active.read sessionKey = some entry

/-- A start with a full registry takes out the entry of one other stream. -/
def TakesOne (system : System Channel) (action : Action Channel) : Prop :=
  ∀ number stream, action = .insert number → system.streams[number]? = some stream →
    stream.phase = .drawn → maxActiveStreams ≤ system.active.entries.length →
      ∃ other, other ≠ number ∧
        (∃ sessionKey entry, system.active.read sessionKey = some entry ∧ entry.stream = other) ∧
        ((step system action).streams[number]?).map Stream.phase = some (.inserted [other])

/-- The streams that are told to cancel are those whose entries were taken out. -/
def TellsTaken (system : System Channel) (action : Action Channel) : Prop :=
  ∀ number stream taken, action = .cancelTaken number → system.streams[number]? = some stream →
    stream.phase = .inserted taken → ∀ other : ℕ,
      ((step system action).streams[other]?).map Stream.cancelled =
        (system.streams[other]?).map fun before => before.cancelled || other ∈ taken

/-- A close that returns true tells the registered stream, which still runs, and no other one. -/
def TellsClosed (system : System Channel) (action : Action Channel) : Prop :=
  ∀ sessionKey, action = .close sessionKey → system.closes sessionKey = true →
    ∃ entry stream, system.active.read sessionKey = some entry ∧
      system.streams[entry.stream]? = some stream ∧
      stream.phase ≠ .ended ∧ stream.phase ≠ .unregistered ∧
      ∀ other : ℕ, ((step system action).streams[other]?).map Stream.cancelled =
        (system.streams[other]?).map fun before => before.cancelled || other = entry.stream

/-! ## The invariant -/

/-- The stream may run and was not told to cancel. -/
def Stream.Going (stream : Stream Channel) : Prop :=
  stream.cancelled = false ∧ stream.phase ≠ .drawn ∧ stream.phase ≠ .ended ∧
    stream.phase ≠ .unregistered

structure Consistent (system : System Channel) : Prop where
  roomy : system.active.entries.length ≤ maxActiveStreams
  entryStream : ∀ sessionKey entry, system.active.read sessionKey = some entry →
    ∃ stream, system.streams[entry.stream]? = some stream ∧ stream.sessionKey = sessionKey ∧
      stream.identity = entry.identity ∧ stream.phase ≠ .drawn
  ownIdentity : ∀ (first second : ℕ) (one other : Stream Channel),
    system.streams[first]? = some one → system.streams[second]? = some other →
      one.identity = other.identity → first = second
  drawnBefore : ∀ (number : ℕ) (stream : Stream Channel),
    system.streams[number]? = some stream → stream.identity ≤ system.generation
  known : ∀ number stream, system.streams[number]? = some stream → stream.Going →
    Registered system number stream ∨ Taken system number

theorem Consistent.sound {system : System Channel} (consistent : Consistent system) :
    Sound system where
  roomy := consistent.roomy
  runningKnown number stream isStream runs notCancelled :=
    consistent.known number stream isStream ⟨notCancelled, by simp [runs], by simp [runs],
      by simp [runs]⟩

theorem consistent_initial : Consistent (System.initial : System Channel) where
  roomy := Nat.zero_le _
  entryStream sessionKey entry found := absurd found (by simp [System.initial, Store.empty,
    Store.read])
  ownIdentity first second one other isOne := absurd isOne (by simp [System.initial])
  drawnBefore number stream isStream := absurd isStream (by simp [System.initial])
  known number stream isStream := absurd isStream (by simp [System.initial])

variable {system : System Channel}

theorem modify_streams (number other : ℕ) (change : Stream Channel → Stream Channel) :
    (system.modify number change).streams[other]? =
      (system.streams[other]?).map fun stream =>
        if number = other then change stream else stream := by
  rw [System.modify, List.getElem?_modify]
  split
  case isTrue => rfl
  case isFalse => simp

theorem modify_stream_cases {number other : ℕ} {change : Stream Channel → Stream Channel}
    {stream : Stream Channel}
    (isStream : (system.modify number change).streams[other]? = some stream) :
    (other = number ∧ ∃ before, system.streams[number]? = some before ∧ stream = change before) ∨
      (other ≠ number ∧ system.streams[other]? = some stream) := by
  rw [modify_streams] at isStream
  rcases Option.map_eq_some_iff.mp isStream with ⟨before, isBefore, same⟩
  by_cases isNumber : number = other
  · subst isNumber
    rw [if_pos rfl] at same
    exact Or.inl ⟨rfl, before, isBefore, same.symm⟩
  · rw [if_neg isNumber] at same
    exact Or.inr ⟨Ne.symm isNumber, by rw [isBefore, same]⟩

/-- A change of one stream that makes no other one unknown. -/
theorem Consistent.modify (consistent : Consistent system) {number : ℕ}
    {change : Stream Channel → Stream Channel}
    (keeps : ∀ stream, (change stream).sessionKey = stream.sessionKey ∧
      (change stream).identity = stream.identity)
    (starts : ∀ stream, system.streams[number]? = some stream → stream.phase ≠ .drawn →
      (change stream).phase ≠ .drawn)
    (goes : ∀ stream, system.streams[number]? = some stream → (change stream).Going →
      stream.Going)
    (takes : ∀ stream taken, system.streams[number]? = some stream →
      stream.phase = .inserted taken → (change stream).phase = .inserted taken ∨
        ∀ other ∈ taken, ∀ before, system.streams[other]? = some before → ¬ before.Going) :
    Consistent (system.modify number change) := by
  have sameStream : ∀ (other : ℕ) (stream : Stream Channel),
      (system.modify number change).streams[other]? = some stream →
      ∃ before, system.streams[other]? = some before ∧ stream.sessionKey = before.sessionKey ∧
        stream.identity = before.identity ∧ (stream.Going → before.Going) := by
    intro other stream isStream
    rcases modify_stream_cases isStream with ⟨rfl, before, isBefore, rfl⟩ | ⟨_, isBefore⟩
    · exact ⟨before, isBefore, (keeps before).1, (keeps before).2, goes before isBefore⟩
    · exact ⟨stream, isBefore, rfl, rfl, id⟩
  constructor
  · exact consistent.roomy
  · intro sessionKey entry found
    rcases consistent.entryStream sessionKey entry found with
      ⟨stream, isStream, isKey, isIdentity, started⟩
    rw [modify_streams, isStream, Option.map_some]
    by_cases isNumber : number = entry.stream
    · rw [if_pos isNumber]
      rw [← isNumber] at isStream
      exact ⟨_, rfl, (keeps stream).1.trans isKey, (keeps stream).2.trans isIdentity,
        starts stream isStream started⟩
    · rw [if_neg isNumber]
      exact ⟨_, rfl, isKey, isIdentity, started⟩
  · intro first second one other isOne isOther same
    rcases sameStream first one isOne with ⟨oneBefore, isOneBefore, _, oneIdentity, _⟩
    rcases sameStream second other isOther with ⟨otherBefore, isOtherBefore, _, otherIdentity, _⟩
    rw [oneIdentity, otherIdentity] at same
    exact consistent.ownIdentity first second _ _ isOneBefore isOtherBefore same
  · intro other stream isStream
    rcases sameStream other stream isStream with ⟨before, isBefore, _, identity, _⟩
    rw [identity]
    exact consistent.drawnBefore other before isBefore
  · intro other stream isStream going
    rcases sameStream other stream isStream with ⟨before, isBefore, sameKey, _, wasGoing⟩
    rcases consistent.known other before isBefore (wasGoing going) with
      ⟨entry, found, isEntry⟩ | ⟨starter, starting, taken, isStarting, inserted, isTaken⟩
    · left
      refine ⟨entry, ?_, isEntry⟩
      rw [sameKey]
      exact found
    · right
      by_cases isNumber : number = starter
      · subst isNumber
        rcases takes starting taken isStarting inserted with stays | noneGoing
        · refine ⟨number, change starting, taken, ?_, stays, isTaken⟩
          rw [modify_streams, isStarting, Option.map_some, if_pos rfl]
        · exact absurd (wasGoing going) (noneGoing other isTaken before isBefore)
      · refine ⟨starter, starting, taken, ?_, inserted, isTaken⟩
        rw [modify_streams, isStarting, Option.map_some, if_neg isNumber]

theorem Consistent.remove (consistent : Consistent system) {sessionKey : String}
    (stopped : ∀ entry, system.active.read sessionKey = some entry → ∀ stream,
      system.streams[entry.stream]? = some stream → ¬ stream.Going) :
    Consistent { system with active := system.active.remove sessionKey } := by
  constructor
  · exact (List.length_filter_le _ _).trans consistent.roomy
  · intro other entry found
    by_cases isKey : other = sessionKey
    · rw [isKey, Store.read_remove_self] at found
      exact absurd found (by simp)
    · rw [Store.read_remove_of_ne isKey] at found
      exact consistent.entryStream other entry found
  · exact consistent.ownIdentity
  · exact consistent.drawnBefore
  · intro number stream isStream going
    rcases consistent.known number stream isStream going with ⟨entry, found, isEntry⟩ | isTaken
    · left
      refine ⟨entry, ?_, isEntry⟩
      have different : stream.sessionKey ≠ sessionKey := by
        intro isKey
        rw [isKey] at found
        rw [← isEntry] at isStream
        exact stopped entry found stream isStream going
      exact (Store.read_remove_of_ne different).trans found
    · exact Or.inr isTaken

/-! ## Steps -/

theorem Consistent.draw (consistent : Consistent system)
    (fits : system.generation + 1 < 2 ^ 64) (sessionKey : String) (channel : Channel) :
    Consistent (system.draw sessionKey channel) := by
  unfold System.draw
  rw [nextNumber, Nat.mod_eq_of_lt fits]
  split
  case isFalse => exact consistent
  case isTrue =>
      have cases : ∀ (number : ℕ) (stream : Stream Channel),
          (system.streams ++ [⟨sessionKey, system.generation + 1, channel, .drawn, false⟩])[number]?
            = some stream →
          system.streams[number]? = some stream ∨ (number = system.streams.length ∧
            stream = ⟨sessionKey, system.generation + 1, channel, .drawn, false⟩) := by
        intro number stream isStream
        rcases Nat.lt_trichotomy number system.streams.length with inside | isNew | outside
        · rw [List.getElem?_append_left inside] at isStream
          exact Or.inl isStream
        · subst isNew
          rw [List.getElem?_concat_length, Option.some_inj] at isStream
          exact Or.inr ⟨rfl, isStream.symm⟩
        · rw [List.getElem?_eq_none (by simp; omega)] at isStream
          exact absurd isStream (by simp)
      have old : ∀ (number : ℕ) (stream : Stream Channel),
          system.streams[number]? = some stream →
          (system.streams ++ [⟨sessionKey, system.generation + 1, channel, .drawn, false⟩])[number]?
            = some stream := by
        intro number stream isStream
        rw [List.getElem?_append_left (List.getElem?_eq_some_iff.mp isStream).1, isStream]
      constructor
      · exact consistent.roomy
      · intro other entry found
        rcases consistent.entryStream other entry found with ⟨stream, isStream, facts⟩
        exact ⟨stream, old _ _ isStream, facts⟩
      · intro first second one other isOne isOther same
        rcases cases _ _ isOne with oneBefore | ⟨rfl, rfl⟩
        · rcases cases _ _ isOther with otherBefore | ⟨rfl, rfl⟩
          · exact consistent.ownIdentity _ _ _ _ oneBefore otherBefore same
          · have bound := consistent.drawnBefore _ _ oneBefore
            rw [same] at bound
            exact absurd bound (Nat.not_succ_le_self _)
        · rcases cases _ _ isOther with otherBefore | ⟨rfl, _⟩
          · have bound := consistent.drawnBefore _ _ otherBefore
            rw [← same] at bound
            exact absurd bound (Nat.not_succ_le_self _)
          · rfl
      · intro number stream isStream
        rcases cases _ _ isStream with before | ⟨_, rfl⟩
        · exact Nat.le_succ_of_le (consistent.drawnBefore _ _ before)
        · exact le_rfl
      · intro number stream isStream going
        rcases cases _ _ isStream with before | ⟨_, rfl⟩
        · rcases consistent.known _ _ before going with
            registered | ⟨starter, starting, taken, isStarting, facts⟩
          · exact Or.inl registered
          · exact Or.inr ⟨starter, starting, taken, old _ _ isStarting, facts⟩
        · exact absurd rfl going.2.1

/-! ### The entries that are taken out -/

theorem evicted_cases (system : System Channel) (sessionKey : String) :
    (system.evicted sessionKey = none ∧ system.withRoom sessionKey = system.active ∧
      ((∃ entry, system.active.read sessionKey = some entry) ∨
        system.active.entries.length < maxActiveStreams)) ∨
    ∃ key entry, system.evicted sessionKey = some (key, entry) ∧
      system.active.read sessionKey = none ∧ system.active.read key = some entry ∧
      system.withRoom sessionKey = system.active.remove key := by
  unfold System.withRoom
  cases isEvicted : system.evicted sessionKey with
  | none =>
      left
      refine ⟨rfl, rfl, ?_⟩
      unfold System.evicted at isEvicted
      split at isEvicted
      case isTrue full =>
          rw [List.argmin_eq_none] at isEvicted
          rw [isEvicted] at full
          exact absurd full.2 (by decide)
      case isFalse notFull =>
          cases found : system.active.read sessionKey with
          | some entry => exact Or.inl ⟨entry, rfl⟩
          | none =>
              right
              rw [found] at notFull
              simpa using notFull
  | some evicted =>
      right
      rcases evicted with ⟨key, entry⟩
      unfold System.evicted at isEvicted
      split at isEvicted
      case isTrue full =>
          refine ⟨key, entry, rfl, Option.isNone_iff_eq_none.mp full.1, ?_, rfl⟩
          exact Store.read_eq_some_iff.mpr (List.argmin_mem isEvicted)
      case isFalse => exact absurd isEvicted (by simp)

theorem length_remove {store : Store String SessionEntry} {key : String} {entry : SessionEntry}
    (found : store.read key = some entry) :
    store.entries.length = (store.remove key).entries.length + 1 := by
  rw [(Store.entries_perm_of_read found).length_eq, List.length_cons]

theorem insert_roomy (roomy : system.active.entries.length ≤ maxActiveStreams)
    (sessionKey : String) (entry : SessionEntry) :
    ((system.withRoom sessionKey).write sessionKey entry).entries.length ≤ maxActiveStreams := by
  have written : ∀ store : Store String SessionEntry,
      (store.write sessionKey entry).entries.length =
        (store.remove sessionKey).entries.length + 1 := fun store => List.length_cons
  have removed : ∀ (store : Store String SessionEntry),
      (store.remove sessionKey).entries.length ≤ store.entries.length := fun store =>
    List.length_filter_le _ _
  rcases evicted_cases system sessionKey with
    ⟨_, same, ⟨before, found⟩ | room⟩ | ⟨key, evicted, _, _, found, without⟩
  · rw [same, written, ← length_remove found]
    exact roomy
  · rw [same, written]
    have fewer := removed system.active
    omega
  · rw [without, written]
    have fewer := removed (system.active.remove key)
    have one := length_remove found
    omega

theorem insert_entry {sessionKey other : String} {entry new : SessionEntry}
    (found : system.active.read other = some entry) :
    ((system.withRoom sessionKey).write sessionKey new).read other = some entry ∨
      entry.stream ∈ system.taken sessionKey := by
  unfold System.taken System.replaced
  rcases evicted_cases system sessionKey with
    ⟨notEvicted, same, _⟩ | ⟨key, evicted, isEvicted, missing, evictedFound, without⟩
  · by_cases isKey : other = sessionKey
    · right
      rw [isKey] at found
      rw [same, found, notEvicted]
      simp
    · left
      rw [Store.read_write_of_ne isKey, same, found]
  · have different : other ≠ sessionKey := by
      rintro rfl
      rw [missing] at found
      exact absurd found (by simp)
    by_cases isKey : other = key
    · right
      rw [isKey, evictedFound, Option.some_inj] at found
      rw [isEvicted, found]
      simp
    · left
      rw [Store.read_write_of_ne different, without, Store.read_remove_of_ne isKey, found]

theorem insert_entry_cases {sessionKey other : String} {entry new : SessionEntry}
    (found : ((system.withRoom sessionKey).write sessionKey new).read other = some entry) :
    (other = sessionKey ∧ entry = new) ∨
      (other ≠ sessionKey ∧ system.active.read other = some entry) := by
  by_cases isKey : other = sessionKey
  · rw [isKey, Store.read_write_self, Option.some_inj] at found
    exact Or.inl ⟨isKey, found.symm⟩
  · rw [Store.read_write_of_ne isKey] at found
    refine Or.inr ⟨isKey, ?_⟩
    rcases evicted_cases system sessionKey with
      ⟨_, same, _⟩ | ⟨key, evicted, _, _, _, without⟩
    · rwa [same] at found
    · rw [without, Store.read_eq_some_iff, Store.mem_remove] at found
      exact Store.read_eq_some_iff.mpr found.1

theorem taken_of_full {sessionKey : String}
    (full : maxActiveStreams ≤ system.active.entries.length) :
    ∃ key entry, system.active.read key = some entry ∧
      system.taken sessionKey = [entry.stream] := by
  unfold System.taken System.replaced
  rcases evicted_cases system sessionKey with
    ⟨notEvicted, same, ⟨before, found⟩ | room⟩ |
      ⟨key, evicted, isEvicted, missing, evictedFound, without⟩
  · refine ⟨sessionKey, before, found, ?_⟩
    rw [same, found, notEvicted]
    rfl
  · exact absurd full (Nat.not_le_of_lt room)
  · refine ⟨key, evicted, evictedFound, ?_⟩
    have stillMissing : (system.active.remove key).read sessionKey = none := by
      rw [Option.eq_none_iff_forall_ne_some]
      intro entry found
      rw [Store.read_eq_some_iff, Store.mem_remove] at found
      rw [Store.read_eq_some_iff.mpr found.1] at missing
      exact absurd missing (by simp)
    rw [without, stillMissing, isEvicted]
    rfl

theorem Consistent.insert (consistent : Consistent system) {number : ℕ}
    {stream : Stream Channel} (isStream : system.streams[number]? = some stream)
    (isDrawn : stream.phase = .drawn) : Consistent (system.insert number stream) := by
  have before : ∀ (other : ℕ) (after : Stream Channel),
      (system.insert number stream).streams[other]? = some after →
      (other = number ∧ after =
        { stream with phase := .inserted (system.taken stream.sessionKey) }) ∨
      (other ≠ number ∧ system.streams[other]? = some after) := by
    intro other after isAfter
    rcases modify_stream_cases isAfter with ⟨isNumber, old, isOld, rfl⟩ | others
    · rw [isStream, Option.some_inj] at isOld
      exact Or.inl ⟨isNumber, by rw [isOld]⟩
    · exact Or.inr others
  have self : (system.insert number stream).streams[number]? =
      some { stream with phase := .inserted (system.taken stream.sessionKey) } := by
    refine (modify_streams number number _).trans ?_
    rw [isStream, Option.map_some, if_pos rfl]
  have other : ∀ (other : ℕ), other ≠ number →
      (system.insert number stream).streams[other]? = system.streams[other]? := by
    intro other different
    refine (modify_streams number other _).trans ?_
    simp [Ne.symm different]
  have sameIdentity : ∀ (other : ℕ) (after : Stream Channel),
      (system.insert number stream).streams[other]? = some after →
      ∃ old, system.streams[other]? = some old ∧ old.identity = after.identity := by
    intro other after isAfter
    rcases before other after isAfter with ⟨rfl, rfl⟩ | ⟨_, isOld⟩
    · exact ⟨stream, isStream, rfl⟩
    · exact ⟨after, isOld, rfl⟩
  constructor
  · exact insert_roomy consistent.roomy _ _
  · intro sessionKey entry found
    rcases insert_entry_cases found with ⟨rfl, rfl⟩ | ⟨_, found⟩
    · exact ⟨_, self, rfl, rfl, by simp⟩
    · rcases consistent.entryStream sessionKey entry found with ⟨old, isOld, facts⟩
      have different : entry.stream ≠ number := by
        rintro same
        rw [same, isStream, Option.some_inj] at isOld
        rw [← isOld] at facts
        exact facts.2.2 isDrawn
      exact ⟨old, (other _ different).trans isOld, facts⟩
  · intro first second one another isOne isAnother same
    rcases sameIdentity _ _ isOne with ⟨oneOld, isOneOld, oneSame⟩
    rcases sameIdentity _ _ isAnother with ⟨anotherOld, isAnotherOld, anotherSame⟩
    rw [← oneSame, ← anotherSame] at same
    exact consistent.ownIdentity _ _ _ _ isOneOld isAnotherOld same
  · intro number after isAfter
    rcases sameIdentity _ _ isAfter with ⟨old, isOld, same⟩
    rw [← same]
    exact consistent.drawnBefore _ _ isOld
  · intro another after isAfter going
    rcases before another after isAfter with ⟨rfl, rfl⟩ | ⟨different, isOld⟩
    · exact Or.inl ⟨_, Store.read_write_self _ _ _, rfl⟩
    · rcases consistent.known another after isOld going with
        ⟨entry, found, isEntry⟩ | ⟨starter, starting, taken, isStarting, inserted, isTaken⟩
      · rcases insert_entry found with stays | isTaken
        · exact Or.inl ⟨entry, stays, isEntry⟩
        · right
          refine ⟨number, _, _, self, rfl, ?_⟩
          rwa [← isEntry]
      · right
        have starterOther : starter ≠ number := by
          rintro rfl
          rw [isStream, Option.some_inj] at isStarting
          rw [← isStarting, isDrawn] at inserted
          exact absurd inserted (by simp)
        exact ⟨starter, starting, taken, (other _ starterOther).trans isStarting, inserted, isTaken⟩

theorem tell_cancelled (number other : ℕ) :
    ((system.tell number).streams[other]?).map Stream.cancelled =
      (system.streams[other]?).map fun before => before.cancelled || other = number := by
  rw [System.tell, modify_streams, Option.map_map]
  congr 1
  funext before
  by_cases same : number = other
  · simp [same]
  · simp [same, Ne.symm same]

theorem Consistent.tell (consistent : Consistent system) (number : ℕ) :
    Consistent (system.tell number) :=
  consistent.modify (fun _ => ⟨rfl, rfl⟩) (fun _ _ started => started)
    (fun _ _ going => absurd going.1 (by simp)) (fun _ _ _ inserted => Or.inl inserted)

theorem Consistent.foldl_tell (consistent : Consistent system) (numbers : List ℕ) :
    Consistent (numbers.foldl System.tell system) := by
  induction numbers generalizing system with
  | nil => exact consistent
  | cons number numbers ih => exact ih (consistent.tell number)

theorem foldl_tell_streams (numbers : List ℕ) (other : ℕ) :
    (numbers.foldl System.tell system).streams[other]? =
      (system.streams[other]?).map fun before =>
        { before with cancelled := before.cancelled || other ∈ numbers } := by
  induction numbers generalizing system with
  | nil => simp
  | cons number numbers ih =>
      rw [List.foldl_cons, ih, System.tell, modify_streams, Option.map_map]
      congr 1
      funext before
      by_cases same : number = other
      · simp [same]
      · simp [same, Ne.symm same]

theorem Consistent.cancelTaken (consistent : Consistent system) {number : ℕ}
    {stream : Stream Channel} {taken : List ℕ} (isStream : system.streams[number]? = some stream)
    (inserted : stream.phase = .inserted taken) : Consistent (system.cancelTaken number taken) := by
  apply (consistent.foldl_tell taken).modify
  · exact fun _ => ⟨rfl, rfl⟩
  · intro _ _ _ isDrawn
    exact absurd isDrawn (by simp)
  · intro before isBefore going
    rw [foldl_tell_streams, isStream, Option.map_some, Option.some_inj] at isBefore
    refine ⟨going.1, ?_, ?_, ?_⟩ <;> rw [← isBefore] <;> simp [inserted]
  · intro before told isBefore isInserted
    right
    intro other isTaken another isAnother
    rw [foldl_tell_streams, isStream, Option.map_some, Option.some_inj] at isBefore
    rw [← isBefore] at isInserted
    have same : taken = told := Phase.inserted.inj (inserted.symm.trans isInserted)
    rw [foldl_tell_streams] at isAnother
    rcases Option.map_eq_some_iff.mp isAnother with ⟨old, _, rfl⟩
    intro going
    have notTold := going.1
    simp [same, isTaken] at notTold

theorem Consistent.setPhase (consistent : Consistent system) {number : ℕ} {phase : Phase}
    {stream : Stream Channel} (isStream : system.streams[number]? = some stream)
    (started : phase ≠ .drawn) (notInserted : ∀ taken, stream.phase ≠ .inserted taken)
    (goes : phase ≠ .ended → phase ≠ .unregistered → ∀ cancelled,
      cancelled = stream.cancelled → cancelled = false → stream.Going) :
    Consistent (system.setPhase number phase) := by
  apply consistent.modify
  · exact fun _ => ⟨rfl, rfl⟩
  · exact fun _ _ _ => started
  · intro before isBefore going
    rw [isStream, Option.some_inj] at isBefore
    rw [← isBefore] at going ⊢
    exact goes going.2.2.1 going.2.2.2 _ rfl going.1
  · intro before taken isBefore inserted
    rw [isStream, Option.some_inj] at isBefore
    rw [← isBefore] at inserted
    exact absurd inserted (notInserted taken)

theorem Consistent.ownEntry (consistent : Consistent system) {number : ℕ}
    {stream : Stream Channel} (isStream : system.streams[number]? = some stream)
    {sessionKey : String} {entry : SessionEntry}
    (found : system.active.read sessionKey = some entry)
    (same : entry.identity = stream.identity) : entry.stream = number := by
  rcases consistent.entryStream sessionKey entry found with
    ⟨owner, isOwner, _, isIdentity, _⟩
  exact consistent.ownIdentity _ _ _ _ isOwner isStream (isIdentity.trans same)

theorem Consistent.unregister (consistent : Consistent system) {number : ℕ}
    {stream : Stream Channel} (isStream : system.streams[number]? = some stream)
    (ended : stream.phase = .ended) : Consistent (system.unregister number stream) := by
  have gone : Consistent (system.setPhase number .unregistered) :=
    consistent.setPhase isStream (by simp) (by simp [ended])
      fun _ notGone => absurd rfl notGone
  unfold System.unregister
  split
  case isFalse => exact gone
  case isTrue isOwn =>
      rcases Option.any_eq_true _ _ |>.mp isOwn with ⟨entry, found, sameIdentity⟩
      have own := consistent.ownEntry isStream found (of_decide_eq_true sameIdentity)
      apply gone.remove
      intro other otherFound after isAfter going
      have sameEntry : entry = other := Option.some_inj.mp (found.symm.trans otherFound)
      rw [← sameEntry, own, System.setPhase, modify_streams, isStream, Option.map_some,
        if_pos rfl, Option.some_inj] at isAfter
      rw [← isAfter] at going
      exact going.2.2.2 rfl

theorem closed_eq_some {sessionKey : String} {number : ℕ}
    (isClosed : system.closed sessionKey = some number) :
    ∃ entry, system.active.read sessionKey = some entry ∧ entry.stream = number := by
  unfold System.closed at isClosed
  split at isClosed
  case isTrue => exact Option.map_eq_some_iff.mp isClosed
  case isFalse => exact absurd isClosed (by simp)

theorem Consistent.close (consistent : Consistent system) (sessionKey : String) :
    Consistent (system.close sessionKey) := by
  unfold System.close
  split
  case h_2 => exact consistent
  case h_1 number isClosed =>
      rcases closed_eq_some isClosed with ⟨entry, found, isEntry⟩
      apply (consistent.tell number).remove
      intro other otherFound after isAfter going
      have sameEntry : entry = other := Option.some_inj.mp (found.symm.trans otherFound)
      rw [← sameEntry, isEntry] at isAfter
      rcases modify_stream_cases isAfter with ⟨_, before, _, rfl⟩ | ⟨different, _⟩
      · exact absurd going.1 (by simp)
      · exact different rfl

theorem Consistent.updateChannel (consistent : Consistent system)
    (fits : system.generation + 1 < 2 ^ 64) (sessionKey : String) (channel : Channel) :
    Consistent (system.updateChannel sessionKey channel) := by
  unfold System.updateChannel
  rw [nextNumber, Nat.mod_eq_of_lt fits]
  split
  case h_2 => exact consistent
  case h_1 entry found =>
      have present : sessionKey ∈ system.active.keys := by
        rw [← Store.read_isSome_iff, found]
        rfl
      have kept : ∀ (other : String) (number : ℕ), (∃ before,
          system.active.read other = some before ∧ before.stream = number) →
          ∃ after, (system.active.replace sessionKey
            { entry with lastUsed := system.generation + 1 }).read other = some after ∧
              after.stream = number := by
        rintro other number ⟨before, isBefore, isNumber⟩
        by_cases isKey : other = sessionKey
        · rw [isKey, found, Option.some_inj] at isBefore
          rw [isKey]
          refine ⟨_, Store.read_replace_self _ present, ?_⟩
          rw [← isNumber, ← isBefore]
        · exact ⟨before, (Store.read_replace_of_ne _ isKey).trans isBefore, isNumber⟩
      constructor
      · exact (List.length_map _).trans_le consistent.roomy
      · intro other after isAfter
        by_cases isKey : other = sessionKey
        · rw [isKey, Store.read_replace_self _ present, Option.some_inj] at isAfter
          rw [isKey, ← isAfter]
          exact consistent.entryStream sessionKey entry found
        · rw [Store.read_replace_of_ne _ isKey] at isAfter
          exact consistent.entryStream other after isAfter
      · exact consistent.ownIdentity
      · exact fun number stream isStream =>
          Nat.le_succ_of_le (consistent.drawnBefore number stream isStream)
      · intro number stream isStream going
        rcases consistent.known number stream isStream going with registered | isTaken
        · exact Or.inl (kept _ _ registered)
        · exact Or.inr isTaken

theorem Consistent.assignChannel (consistent : Consistent system) (update : ℕ) :
    Consistent (system.assignChannel update) := by
  unfold System.assignChannel
  split
  case h_2 => exact consistent
  case h_1 number channel _ =>
      have withoutUpdate : Consistent { system with updates := system.updates.eraseIdx update } :=
        ⟨consistent.roomy, consistent.entryStream, consistent.ownIdentity,
          consistent.drawnBefore, consistent.known⟩
      exact withoutUpdate.modify (fun _ => ⟨rfl, rfl⟩) (fun _ _ started => started)
        (fun _ _ going => going) (fun _ _ _ inserted => Or.inl inserted)

theorem Consistent.advance (consistent : Consistent system) {number : ℕ} (action : Action Channel)
    {stream : Stream Channel} (isStream : system.streams[number]? = some stream) :
    Consistent (advance system number action stream) := by
  unfold McpHttp.advance
  split
  case h_1 isDrawn => exact consistent.insert isStream isDrawn
  case h_2 inserted => exact consistent.cancelTaken isStream inserted
  case h_3 told =>
      apply consistent.setPhase isStream (by simp) (by simp [told])
      intro _ _ cancelled same notCancelled
      exact ⟨same.symm.trans notCancelled, by simp [told], by simp [told], by simp [told]⟩
  case h_4 runs =>
      exact consistent.setPhase isStream (by simp) (by simp [runs])
        fun notEnded => absurd rfl notEnded
  case h_5 ended => exact consistent.unregister isStream ended
  case h_6 => exact consistent

/-- The number that a step may draw does not wrap around. -/
def Fits (system : System Channel) (action : Action Channel) : Prop :=
  action.draws = true → system.generation + 1 < 2 ^ 64

theorem Consistent.step (consistent : Consistent system) {action : Action Channel}
    (fits : Fits system action) : Consistent (step system action) := by
  unfold McpHttp.step
  split
  case h_1 => exact consistent.draw (fits rfl) _ _
  case h_2 => exact consistent.close _
  case h_3 => exact consistent.updateChannel (fits rfl) _ _
  case h_4 => exact consistent.assignChannel _
  all_goals
    split
    case h_1 isStream => exact consistent.advance _ isStream
    case h_2 => exact consistent

/-! ## Runs -/

theorem step_of_stream {number : ℕ} {stream : Stream Channel} {action : Action Channel}
    (isStream : system.streams[number]? = some stream)
    (isOwn : action = .insert number ∨ action = .cancelTaken number ∨
      action = .unregister number) :
    step system action = advance system number action stream := by
  rcases isOwn with rfl | rfl | rfl <;> simp only [step, isStream]

theorem Consistent.keepsOthers (consistent : Consistent system) (action : Action Channel) :
    KeepsOthers system action := by
  rintro number rfl sessionKey entry found different
  cases isStream : system.streams[number]? with
  | none =>
      simp only [McpHttp.step, isStream]
      exact found
  | some stream =>
      rw [step_of_stream isStream (by simp)]
      by_cases ended : stream.phase = .ended
      · have isUnregister : McpHttp.advance system number (.unregister number) stream =
            system.unregister number stream := by
          rw [McpHttp.advance.eq_def, ended]
        rw [isUnregister]
        unfold System.unregister
        split
        case isFalse => exact found
        case isTrue isOwn =>
            rcases Option.any_eq_true _ _ |>.mp isOwn with ⟨own, ownFound, sameIdentity⟩
            have isNumber := consistent.ownEntry isStream ownFound (of_decide_eq_true sameIdentity)
            have otherKey : sessionKey ≠ stream.sessionKey := by
              rintro rfl
              rw [found, Option.some_inj] at ownFound
              rw [ownFound] at different
              exact different isNumber
            exact (Store.read_remove_of_ne otherKey).trans found
      · have unchanged : McpHttp.advance system number (.unregister number) stream = system := by
          cases isPhase : stream.phase <;> simp_all [McpHttp.advance]
        rwa [unchanged]

theorem Consistent.takesOne (consistent : Consistent system) (action : Action Channel) :
    TakesOne system action := by
  rintro number stream rfl isStream isDrawn full
  rcases @taken_of_full _ system stream.sessionKey full with ⟨key, entry, found, isTaken⟩
  refine ⟨entry.stream, ?_, ⟨key, entry, found, rfl⟩, ?_⟩
  · rintro same
    rcases consistent.entryStream key entry found with ⟨owner, isOwner, _, _, started⟩
    rw [same, isStream, Option.some_inj] at isOwner
    rw [← isOwner] at started
    exact started isDrawn
  · have isInsert : McpHttp.step system (.insert number) = system.insert number stream := by
      rw [step_of_stream isStream (by simp), McpHttp.advance.eq_def, isDrawn]
    have self : (system.insert number stream).streams[number]? =
        some { stream with phase := .inserted (system.taken stream.sessionKey) } := by
      refine (modify_streams number number _).trans ?_
      rw [isStream, Option.map_some, if_pos rfl]
    rw [isInsert, self, Option.map_some, isTaken]

theorem tellsTaken (system : System Channel) (action : Action Channel) :
    TellsTaken system action := by
  rintro number stream taken rfl isStream inserted other
  have isCancel : step system (.cancelTaken number) = system.cancelTaken number taken := by
    rw [step_of_stream isStream (by simp), advance.eq_def, inserted]
  rw [isCancel, System.cancelTaken, System.setPhase, modify_streams, Option.map_map,
    foldl_tell_streams, Option.map_map]
  congr 1
  funext before
  simp only [Function.comp_apply]
  split <;> rfl

theorem tellsClosed (system : System Channel) (action : Action Channel) :
    TellsClosed system action := by
  rintro sessionKey rfl closes
  rcases Option.any_eq_true _ _ |>.mp closes with ⟨number, isClosed, receives⟩
  rcases Option.any_eq_true _ _ |>.mp receives with ⟨stream, isStream, running⟩
  rcases closed_eq_some isClosed with ⟨entry, found, rfl⟩
  rw [decide_eq_true_eq] at running
  refine ⟨entry, stream, found, isStream, running.1, running.2, ?_⟩
  intro other
  have isClose : step system (.close sessionKey) =
      { system with active := system.active.remove sessionKey }.tell entry.stream := by
    simp only [McpHttp.step, System.close, isClosed]
  rw [isClose]
  exact tell_cancelled entry.stream other

theorem generation_foldl_tell (numbers : List ℕ) :
    (numbers.foldl System.tell system).generation = system.generation := by
  induction numbers generalizing system with
  | nil => rfl
  | cons number numbers ih => exact ih

/-- Only a step that draws a number changes the generation. -/
theorem generation_step (system : System Channel) (action : Action Channel) :
    (step system action).generation ≤ system.generation + action.draws.toNat := by
  cases action with
  | draw sessionKey channel =>
      simp only [step, System.draw]
      split
      · exact Nat.mod_le _ _
      · exact Nat.le_succ _
  | updateChannel sessionKey channel =>
      simp only [step, System.updateChannel]
      split
      · exact Nat.mod_le _ _
      · exact Nat.le_succ _
  | close sessionKey =>
      simp only [step, System.close]
      split <;> exact le_rfl
  | assignChannel update =>
      simp only [step, System.assignChannel]
      split <;> exact le_rfl
  | insert | cancelTaken | spawn | stop | unregister =>
      simp only [step]
      split
      · unfold advance
        split
        case h_2 => exact (generation_foldl_tell _).le
        case h_5 =>
            unfold System.unregister
            split <;> exact le_rfl
        all_goals exact le_rfl
      · exact le_rfl

theorem generation_stateAt (actions : List (Action Channel)) {n : ℕ}
    (inRange : n ≤ actions.length) :
    (stateAt step System.initial actions n).generation ≤
      (actions.take n).countP Action.draws := by
  induction n with
  | zero => exact Nat.zero_le _
  | succ n ih =>
      rw [stateAt_succ inRange, List.take_succ_eq_append_getElem inRange, List.countP_append,
        List.countP_singleton]
      have before := ih (Nat.le_of_lt inRange)
      have drawn := generation_step (stateAt step System.initial actions n) actions[n]
      cases isDraw : actions[n].draws <;> simp [isDraw] at drawn ⊢ <;> omega

theorem fits_everyStep {actions : List (Action Channel)}
    (few : actions.countP Action.draws < 2 ^ 64) :
    EveryStep step System.initial actions Fits := by
  intro n inRange isDraw
  have before := generation_stateAt actions (Nat.le_of_lt inRange)
  have within := (List.take_sublist (n + 1) actions).countP_le (p := Action.draws)
  rw [List.take_succ_eq_append_getElem inRange, List.countP_append, List.countP_singleton,
    if_pos isDraw] at within
  omega

theorem consistent_stateAt {actions : List (Action Channel)}
    (few : actions.countP Action.draws < 2 ^ 64) :
    EveryState step System.initial actions Consistent :=
  EveryState.of_everyStep consistent_initial (fun _ _ consistent fits => consistent.step fits)
    (fits_everyStep few)

/-- In every run in which the numbers do not wrap around, the running streams are unique, up to
those that are about to be told to cancel, and every step takes out and tells only the streams
that it should. -/
theorem streams_unique (actions : List (Action Channel))
    (few : actions.countP Action.draws < 2 ^ 64) :
    EveryState step System.initial actions Sound ∧
      EveryStep step System.initial actions fun system action =>
        KeepsOthers system action ∧ TakesOne system action ∧ TellsTaken system action ∧
          TellsClosed system action := by
  have every := consistent_stateAt few
  refine ⟨fun n inRange => (every n inRange).sound, ?_⟩
  intro n inRange
  have consistent := every n (Nat.le_of_lt inRange)
  exact ⟨consistent.keepsOthers _, consistent.takesOne _, tellsTaken _ _, tellsClosed _ _⟩

/-! ## A stream that is about to be told -/

/-- A second stream of the same session, before it tells the first one. -/
def replacingRun : List (Action Unit) :=
  [.draw "a" (), .insert 0, .cancelTaken 0, .spawn 0, .draw "a" (), .insert 1]

theorem replacing_unique :
    EveryState step System.initial replacingRun Sound ∧
      EveryStep step System.initial replacingRun fun system action =>
        KeepsOthers system action ∧ TakesOne system action ∧ TellsTaken system action ∧
          TellsClosed system action :=
  streams_unique replacingRun (by decide)

theorem replaced_stream_runs :
    ¬ ∀ actions : List (Action Unit),
      EveryState step System.initial actions RunningRegistered := by
  intro every
  have registered := every replacingRun 6 le_rfl 0 ⟨"a", 1, (), .running, false⟩ rfl rfl rfl
  rcases registered with ⟨entry, found, isEntry⟩
  have isSecond : entry.stream = 1 := by
    have same : some (⟨2, 2, 1⟩ : SessionEntry) = some entry := found
    rw [← Option.some_inj.mp same]
  rw [isSecond] at isEntry
  exact absurd isEntry (by decide)

end Brunomnia.McpHttp
