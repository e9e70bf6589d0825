/-
**`OutputSink`: what is sent is captured for replays.**

A stream passes wires to `send_wire`, which sends them in segments and, for an idempotent request, keeps
the segments. The bytes of all captures are reserved on one counter; a capture that does not fit
overflows and keeps nothing. A step is what a stream does between two awaits: one segment, or `finish`.

* `captureSegment_spec`: one segment is kept and paid for, or the capture overflows and pays back;
* `step_books`, `run_books`: the counter is the sum of the captures, whatever the streams do;
* `capture_exact`: the claims about a capture and its end, in every run.
-/

import UniApi.Front.AtMostOnce

namespace UniApi.Front.Capture

open UniApi.Lib UniApi.Lib.Table UniApi.Front.Idempotency

/-! ### The counter -/

/-- `try_reserve_atomic`: whether the bytes were reserved, and the counter after it. -/
def tryReserveAtomic (counter limit bytes : Nat) : Bool × Nat :=
  if bytes = 0 then (true, counter)
  else if counter + bytes ≤ limit then (true, counter + bytes)
  else (false, counter)

/-- `atomic_saturating_sub`. -/
def atomicSaturatingSub (counter bytes : Nat) : Nat := counter - bytes

/-! ### The sink -/

/-- `DOWNSTREAM_SEGMENT_BYTES`. -/
def downstreamSegmentBytes : Nat := 64 * 1024

/-- The segments of a wire: `wire.slice(offset..end)` for every `offset` of the loop. -/
def segmentsFrom : Nat → Bytes → List Bytes
  | 0, _ => []
  | fuel + 1, wire =>
    if wire = [] then []
    else wire.take downstreamSegmentBytes :: segmentsFrom fuel (wire.drop downstreamSegmentBytes)

/-- The segments of a wire; each takes a byte at least. -/
def segments (wire : Bytes) : List Bytes := segmentsFrom wire.length wire

structure IdempotencyCapture where
  owner : Owner
  status : Nat
  headers : Headers
  chunks : List Bytes
  bytes : Nat
  maxBytes : Nat
  overflowed : Bool

structure OutputSink where
  downstreamOpen : Bool
  capture : Option IdempotencyCapture

/-- The part of `send_wire` before the segment is sent. -/
def captureSegment (limit : Nat) (segment : Bytes) (inflight : Nat) (capture : IdempotencyCapture) :
    Nat × IdempotencyCapture :=
  if capture.overflowed then (inflight, capture)
  else
    let nextBytes := capture.bytes + segment.length
    let overflow := fun inflight =>
      (atomicSaturatingSub inflight capture.bytes,
        { capture with overflowed := true, chunks := [], bytes := 0 })
    if capture.maxBytes < nextBytes then overflow inflight
    else
      match tryReserveAtomic inflight limit segment.length with
      | (false, inflight) => overflow inflight
      | (true, inflight) =>
        (inflight, { capture with bytes := nextBytes, chunks := capture.chunks ++ [segment] })

/-- What `finish` calls on the owner. -/
def settlement (cacheable : Bool) (now : Nat) (capture : IdempotencyCapture) : Event :=
  if !cacheable then .release capture.owner
  else if capture.overflowed then .nonreplayable capture.owner now "response_too_large"
  else .complete capture.owner now
    { status := capture.status, headers := capture.headers, chunks := capture.chunks,
      bytes := capture.bytes }

/-! ### Streams -/

/-- A running stream. -/
structure Stream where
  sink : OutputSink
  /-- The segments of the wire in `send_wire`. -/
  pending : List Bytes
  /-- Every wire that was passed to `send_wire`. -/
  passed : List Bytes

/-- The bytes of a live capture. -/
def Stream.bytes (stream : Stream) : Nat := (stream.sink.capture.map IdempotencyCapture.bytes).getD 0

/-- What a stream does next. -/
inductive Action where
  /-- A stream starts, with a capture for the owner of an idempotent request. -/
  | start (id : Nat) (capture : Option (Owner × Nat × Headers))
  /-- `send_wire` is called. -/
  | send (id : Nat) (wire : Bytes)
  /-- One round of its loop; the segment is accepted downstream, if it is still open, or not. -/
  | segment (id : Nat) (accepted : Bool)
  /-- `finish`. -/
  | finish (id : Nat)
  /-- A response that is no stream reserves its bytes and gives them back. -/
  | whole (bytes : Nat)

structure Streams where
  inflight : Nat
  streams : Table Nat Stream

namespace Streams

/-- `inflight_response_bytes` is zero, and nothing runs. -/
def fresh : Streams := ⟨0, ∅⟩

variable (limit maxResponseBytes : Nat)

/-- One round of the loop of `send_wire`. -/
def sendSegment (accepted : Bool) (segment : Bytes) (rest : List Bytes) (inflight : Nat)
    (stream : Stream) : Nat × Stream :=
  match stream.sink.capture with
  | none =>
    -- without a capture a failed write ends the call
    (inflight, { stream with pending := if stream.sink.downstreamOpen && !accepted then [] else rest })
  | some capture =>
    let (inflight, capture) := captureSegment limit segment inflight capture
    (inflight,
      { stream with
        sink := ⟨stream.sink.downstreamOpen && accepted, some capture⟩
        pending := rest })

/-- **One step of one stream.** -/
def step (state : Streams) : Action → Streams
  | .start id capture =>
    if (state.streams.lookup id).isSome then state
    else
      let capture := capture.map fun (owner, status, headers) =>
        { owner, status, headers, chunks := [], bytes := 0, maxBytes := maxResponseBytes,
          overflowed := false }
      { state with streams := state.streams.insert id ⟨⟨true, capture⟩, [], []⟩ }
  | .send id wire =>
    match state.streams.lookup id with
    | some stream =>
      if stream.pending = [] then
        { state with
          streams := state.streams.replace id
            { stream with pending := segments wire, passed := stream.passed ++ [wire] } }
      else state
    | none => state
  | .segment id accepted =>
    match state.streams.lookup id with
    | some stream =>
      match stream.pending with
      | [] => state
      | segment :: rest =>
        let (inflight, stream) := sendSegment limit accepted segment rest state.inflight stream
        { inflight, streams := state.streams.replace id stream }
    | none => state
  | .finish id =>
    match state.streams.lookup id with
    | some stream =>
      if stream.pending = [] then
        { inflight := atomicSaturatingSub state.inflight stream.bytes
          streams := state.streams.erase id }
      else state
    | none => state
  | .whole bytes =>
    match tryReserveAtomic state.inflight limit bytes with
    | (true, inflight) => { state with inflight := atomicSaturatingSub inflight bytes }
    | (false, _) => state

/-- The steps of a run. -/
def run (actions : List Action) : Streams := actions.foldl (step limit maxResponseBytes) fresh

end Streams

/-! ### Segments -/

theorem segmentsFrom_flatten {fuel : Nat} {wire : Bytes} (enough : wire.length ≤ fuel) :
    (segmentsFrom fuel wire).flatten = wire := by
  induction fuel generalizing wire with
  | zero =>
    rw [List.eq_nil_of_length_eq_zero (Nat.le_zero.mp enough)]
    rfl
  | succ fuel ih =>
    unfold segmentsFrom
    split
    · rename_i empty
      exact empty.symm
    · rename_i nonempty
      have positive := List.length_pos_iff.mpr nonempty
      rw [List.flatten_cons, ih, List.take_append_drop]
      rw [List.length_drop]
      unfold downstreamSegmentBytes
      omega

/-- **The segments of a wire are the wire.** -/
theorem segments_flatten (wire : Bytes) : (segments wire).flatten = wire :=
  segmentsFrom_flatten (Nat.le_refl _)

/-! ### The books -/

theorem tryReserveAtomic_cases (counter limit bytes : Nat) (within : counter ≤ limit) :
    (tryReserveAtomic counter limit bytes = (true, counter + bytes) ∧ counter + bytes ≤ limit) ∨
      tryReserveAtomic counter limit bytes = (false, counter) := by
  unfold tryReserveAtomic
  split
  · rename_i zero
    subst zero
    exact Or.inl ⟨rfl, within⟩
  split
  · rename_i fits
    exact Or.inl ⟨rfl, fits⟩
  · exact Or.inr rfl

/-- **A capture is exact**: what it kept and what is still to be sent is what was passed, or it has
overflowed and keeps nothing. -/
def Exact (maxResponseBytes : Nat) (stream : Stream) : Prop :=
  ∀ capture, stream.sink.capture = some capture →
    capture.maxBytes = maxResponseBytes ∧
    if capture.overflowed then capture.chunks = [] ∧ capture.bytes = 0
    else capture.chunks.flatten ++ stream.pending.flatten = stream.passed.flatten ∧
      capture.bytes = capture.chunks.flatten.length ∧ capture.bytes ≤ maxResponseBytes

/-- **One segment** is kept and paid for, or the capture overflows and pays back. -/
theorem captureSegment_spec {limit inflight others : Nat} {capture : IdempotencyCapture}
    (within : inflight ≤ limit) (books : inflight = others + capture.bytes) (segment : Bytes) :
    let after := captureSegment limit segment inflight capture
    after.1 ≤ limit ∧ after.1 = others + after.2.bytes ∧ after.2.maxBytes = capture.maxBytes ∧
      ((after.2.overflowed = true ∧ (capture.overflowed = false → after.2.chunks = [] ∧ after.2.bytes = 0)
          ∧ (capture.overflowed = true → after.2 = capture)) ∨
        (capture.overflowed = false ∧ after.2.overflowed = false ∧
          after.2.chunks = capture.chunks ++ [segment] ∧
          after.2.bytes = capture.bytes + segment.length ∧ after.2.bytes ≤ capture.maxBytes)) := by
  dsimp only
  unfold captureSegment
  cases overflowed : capture.overflowed with
  | true =>
    rw [if_pos rfl]
    exact ⟨within, books, rfl, Or.inl ⟨overflowed, nofun, fun _ => rfl⟩⟩
  | false =>
    rw [if_neg Bool.false_ne_true]
    dsimp only
    have paidBack : inflight - capture.bytes ≤ limit ∧ inflight - capture.bytes = others + 0 := by omega
    split
    · exact ⟨paidBack.1, paidBack.2, rfl, Or.inl ⟨rfl, fun _ => ⟨rfl, rfl⟩, nofun⟩⟩
    · rename_i small
      rcases tryReserveAtomic_cases inflight limit segment.length within with ⟨reserved, fits⟩ | refused
      · rw [reserved]
        refine ⟨fits, ?_, rfl, Or.inr ⟨rfl, rfl, rfl, rfl, Nat.le_of_not_lt small⟩⟩
        show inflight + segment.length = others + (capture.bytes + segment.length)
        omega
      · rw [refused]
        exact ⟨paidBack.1, paidBack.2, rfl, Or.inl ⟨rfl, fun _ => ⟨rfl, rfl⟩, nofun⟩⟩

namespace Streams

variable {limit maxResponseBytes : Nat} {state : Streams}

/-- **The books**: the counter is the sum of the live captures and within its limit. -/
structure Books (limit maxResponseBytes : Nat) (state : Streams) : Prop where
  total : state.inflight = weight Stream.bytes state.streams
  within : state.inflight ≤ limit
  exact : ∀ id stream, state.streams.lookup id = some stream → Exact maxResponseBytes stream

/-- A stream that changed, with the counter. -/
theorem Books.replace (books : state.Books limit maxResponseBytes) {id : Nat} {stream : Stream}
    (found : state.streams.lookup id = some stream) {inflight others : Nat} {other : Stream}
    (before : state.inflight = others + stream.bytes) (after : inflight = others + other.bytes)
    (within : inflight ≤ limit) (exact : Exact maxResponseBytes other) :
    (⟨inflight, state.streams.replace id other⟩ : Streams).Books limit maxResponseBytes where
  total := by
    have moved := weight_replace Stream.bytes found other
    have total := books.total
    show inflight = weight Stream.bytes (state.streams.replace id other)
    omega
  within := within
  exact key value here := by
    rcases lookup_of_lookup_replace here with ⟨-, rfl⟩ | ⟨-, old⟩
    · exact exact
    · exact books.exact key value old

/-- One round of the loop keeps a stream exact and its bytes on the counter. -/
theorem sendSegment_spec {inflight others : Nat} {stream : Stream} {segment : Bytes}
    {rest : List Bytes} (pending : stream.pending = segment :: rest)
    (exact : Exact maxResponseBytes stream) (within : inflight ≤ limit)
    (books : inflight = others + stream.bytes) (accepted : Bool) :
    let after := sendSegment limit accepted segment rest inflight stream
    after.1 ≤ limit ∧ after.1 = others + after.2.bytes ∧ Exact maxResponseBytes after.2 := by
  dsimp only
  unfold sendSegment
  cases sink : stream.sink.capture with
  | none =>
    refine ⟨within, ?_, fun capture here => absurd (sink.symm.trans here) nofun⟩
    rw [books]
    rfl
  | some capture =>
    obtain ⟨max, kept⟩ := exact capture sink
    have own : stream.bytes = capture.bytes := by
      unfold Stream.bytes
      rw [sink]
      rfl
    have spec := captureSegment_spec within (own ▸ books) segment
    cases result : captureSegment limit segment inflight capture with
    | mk counter after =>
    rw [result] at spec
    dsimp only at spec
    obtain ⟨within', books', max', outcome⟩ := spec
    simp only [result]
    refine ⟨within', books', fun other here => ?_⟩
    cases here
    refine ⟨max'.trans max, ?_⟩
    rcases outcome with ⟨overflowed, now, before⟩ | ⟨wasFine, fine, chunks, bytes, small⟩
    · rw [if_pos overflowed]
      cases already : capture.overflowed with
      | false => exact now already
      | true =>
        rw [already, if_pos rfl] at kept
        have same : after = capture := before already
        rw [same]
        exact kept
    · rw [wasFine, if_neg Bool.false_ne_true] at kept
      rw [fine, if_neg Bool.false_ne_true, chunks, bytes]
      refine ⟨?_, ?_, by omega⟩
      · rw [List.flatten_append, List.flatten_singleton, List.append_assoc, ← List.flatten_cons,
          ← pending]
        exact kept.1
      · rw [List.flatten_append, List.flatten_singleton, List.length_append, kept.2.1]

/-- **One step keeps the books.** -/
theorem step_books (books : state.Books limit maxResponseBytes) (action : Action) :
    (state.step limit maxResponseBytes action).Books limit maxResponseBytes := by
  have share : ∀ id stream, state.streams.lookup id = some stream →
      state.inflight = (state.inflight - stream.bytes) + stream.bytes := by
    intro id stream found
    have part := weigh_le_weight Stream.bytes found
    have total := books.total
    omega
  cases action with
  | start id capture =>
    unfold step
    dsimp only
    split
    · exact books
    · rename_i unused
      have found : state.streams.lookup id = none := by simpa using unused
      have empty : ∀ capture : Option (Owner × Nat × Headers), Stream.bytes
          ⟨⟨true, capture.map fun (owner, status, headers) =>
            { owner, status, headers, chunks := [], bytes := 0, maxBytes := maxResponseBytes,
              overflowed := false }⟩, [], []⟩ = 0 := by
        intro capture
        cases capture <;> rfl
      refine ⟨?_, books.within, fun key value here => ?_⟩
      · show state.inflight = weight Stream.bytes (state.streams.insert id _)
        rw [weight_insert _ found, empty, Nat.add_zero, books.total]
      · by_cases same : key = id
        · subst same
          cases (AList.lookup_insert _).symm.trans here
          intro kept isSome
          obtain ⟨⟨owner, status, headers⟩, -, rfl⟩ := Option.map_eq_some_iff.mp isSome
          exact ⟨rfl, rfl, rfl, Nat.zero_le _⟩
        · exact books.exact key value ((lookup_insert_of_ne same).symm.trans here)
  | send id wire =>
    unfold step
    dsimp only
    cases found : state.streams.lookup id with
    | none => exact books
    | some stream =>
      dsimp only
      split
      · rename_i idle
        refine books.replace found (share id stream found) (share id stream found) books.within ?_
        intro capture isSome
        obtain ⟨max, kept⟩ := books.exact id stream found capture isSome
        refine ⟨max, ?_⟩
        split
        · rename_i overflowed
          rw [overflowed, if_pos rfl] at kept
          exact kept
        · rename_i fine
          rw [if_neg fine, idle, List.flatten_nil, List.append_nil] at kept
          refine ⟨?_, kept.2⟩
          rw [segments_flatten, List.flatten_append, List.flatten_singleton, kept.1]
      · exact books
  | segment id accepted =>
    unfold step
    dsimp only
    cases found : state.streams.lookup id with
    | none => exact books
    | some stream =>
      dsimp only
      split
      · exact books
      · rename_i segment rest pending
        obtain ⟨within, after, exact⟩ := sendSegment_spec pending (books.exact id stream found)
          books.within (share id stream found) accepted
        exact books.replace found (share id stream found) after within exact
  | finish id =>
    unfold step
    dsimp only
    cases found : state.streams.lookup id with
    | none => exact books
    | some stream =>
      dsimp only
      split
      · have removed := weight_erase Stream.bytes found
        have total := books.total
        have within := books.within
        refine ⟨?_, ?_, fun key value here => ?_⟩
        · show state.inflight - stream.bytes = weight Stream.bytes (state.streams.erase id)
          omega
        · show state.inflight - stream.bytes ≤ limit
          omega
        · exact books.exact key value (lookup_of_lookup_erase here).2
      · exact books
  | whole bytes =>
    unfold step
    dsimp only
    rcases tryReserveAtomic_cases state.inflight limit bytes books.within with
      ⟨reserved, fits⟩ | refused
    · rw [reserved]
      have same : atomicSaturatingSub (state.inflight + bytes) bytes = state.inflight :=
        Nat.add_sub_cancel _ _
      dsimp only
      rw [same]
      exact books
    · rw [refused]
      exact books

/-- **Every run keeps the books.** -/
theorem run_books (limit maxResponseBytes : Nat) (actions : List Action) :
    (run limit maxResponseBytes actions).Books limit maxResponseBytes := by
  have start : fresh.Books limit maxResponseBytes := ⟨rfl, Nat.zero_le _, nofun⟩
  unfold run
  induction actions using List.reverseRecOn with
  | nil => exact start
  | append_singleton before action ih =>
    rw [List.foldl_append]
    exact step_books ih action

/-- **Captures are exact**: in every run the counter is the sum of the live captures and within its
limit, a capture that did not overflow holds what was passed to its stream and completes with it, and one
that did holds nothing and is not stored. -/
theorem capture_exact (limit : Nat) (limits : Limits) (actions : List Action) :
    let state := run limit limits.maxResponseBytes actions
    state.inflight = weight Stream.bytes state.streams ∧
      state.inflight ≤ limit ∧
      (state.streams = ∅ → state.inflight = 0) ∧
      ∀ id stream capture, state.streams.lookup id = some stream →
        stream.sink.capture = some capture →
        (capture.overflowed = true →
          capture.chunks = [] ∧ capture.bytes = 0 ∧
          ∀ cacheable now, settlement cacheable now capture = .release capture.owner ∨
            settlement cacheable now capture = .nonreplayable capture.owner now "response_too_large") ∧
        (capture.overflowed = false →
          capture.chunks.flatten ++ stream.pending.flatten = stream.passed.flatten ∧
          capture.bytes = capture.chunks.flatten.length ∧
          capture.bytes ≤ limits.maxResponseBytes ∧
          ∀ now, ∃ response : CachedResponse,
            settlement true now capture = .complete capture.owner now response ∧
            response.status = capture.status ∧ response.bytes = response.chunks.flatten.length ∧
            (stream.pending = [] → response.chunks.flatten = stream.passed.flatten) ∧
            ∀ events, capture.owner ∈ (System.run limits events).owners →
              State.cacheableStatus response.status = true →
              ((System.run limits events).state.complete limits now response capture.owner).1 = .noRoom ∨
              ∃ stored,
                ((System.run limits events).step limits
                  (settlement true now capture)).state.entries.lookup capture.owner.recordKey =
                    some stored ∧
                stored.Settled ∧
                stored.response =
                  some { response with headers := Headers.remove statusHeader response.headers }) := by
  have books := run_books limit limits.maxResponseBytes actions
  refine ⟨books.total, books.within, fun none => ?_, fun id stream capture found isSome => ?_⟩
  · rw [books.total, none]
    rfl
  obtain ⟨-, kept⟩ := books.exact id stream found capture isSome
  refine ⟨fun overflowed => ?_, fun fine => ?_⟩
  · rw [overflowed, if_pos rfl] at kept
    refine ⟨kept.1, kept.2, fun cacheable now => ?_⟩
    unfold settlement
    cases cacheable with
    | false => exact Or.inl rfl
    | true =>
      rw [overflowed]
      exact Or.inr rfl
  · rw [fine, if_neg Bool.false_ne_true] at kept
    obtain ⟨passed, bytes, small⟩ := kept
    refine ⟨passed, bytes, small, fun now => ?_⟩
    have completes : settlement true now capture = .complete capture.owner now
        { status := capture.status, headers := capture.headers, chunks := capture.chunks,
          bytes := capture.bytes } := by
      unfold settlement
      rw [fine]
      rfl
    refine ⟨_, completes, rfl, bytes, fun idle => ?_, fun events working cacheable => ?_⟩
    · rw [← passed, idle, List.flatten_nil, List.append_nil]
    · rw [completes]
      exact System.complete_small working now cacheable small

end Streams

end UniApi.Front.Capture
