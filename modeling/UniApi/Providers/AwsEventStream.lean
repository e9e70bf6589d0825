/-
**The event stream of AWS: `_iter_aws_eventstream_payloads`.**

A frame says how long it is, how long its headers are, and has two checksums. The bytes that have come are
kept until they hold a whole frame.

* `readFrames`, `readChunk`, `iterAwsEventstreamPayloads`: the loops over the frames and the chunks;
* `Frame.wire`: the bytes of a frame;
* `readFrames_eq`, `readChunks_eq`: the loops are those of a framer;
* `payloads_framed`: what is yielded does not depend on the chunks.
-/

import UniApi.Lib.Framing
import UniApi.Lib.PyData
import UniApi.Streaming.RetainedBudget

namespace UniApi.Providers.AwsEventStream

open UniApi.Lib

/-! ### The stream -/

/-- `int.from_bytes(data, "big")`. -/
def fromBytes (data : Bytes) : ℕ := data.foldl (fun value byte => value * 256 + byte.toNat) 0

/-- `data[start:stop]`. -/
def slice (data : Bytes) (start stop : ℕ) : Bytes := (data.take stop).drop start

/-- `DEFAULT_MAX_EVENT_BYTES`. -/
def maxEventBytes : ℕ := 8 * 1024 * 1024

/-- Why a payload is not parsed. -/
inductive ParseFailure where
  /-- `JSONDecodeError` or `UnicodeDecodeError`. -/
  | notJson
  | raised (error : Streaming.StreamError)

/-- What the stream calls. -/
structure EventStreamCalls (Value : Type) where
  /-- `zlib.crc32`. -/
  crc32 : Bytes → ℕ
  parseOwnedJsonValue : Bytes → Except ParseFailure Value

/-- The variables of the stream: `pending`, the lease `pending_budget` and the budget of all parsers, and what
was yielded. -/
structure EventStream (Value : Type) where
  pending : Bytes := []
  leaseSize : ℕ := 0
  leaseReleased : Bool := false
  budgetUsed : ℤ
  yielded : List Value := []

variable {Value : Type}

/-- A call of the stream. -/
abbrev Reading (Value : Type) := Raise Streaming.StreamError (EventStream Value)

/-- `StreamParserRetainedLease.grow`, granted. -/
def grow (additionalBytes : ℕ) : Reading Value Unit := do
  let state ← Raise.get
  if state.leaseReleased then Raise.throw (.runtime "parser reservation is released")
  else Raise.modify fun state => { state with
    budgetUsed := state.budgetUsed + additionalBytes, leaseSize := state.leaseSize + additionalBytes }

/-- `StreamParserRetainedLease.shrink`. -/
def shrink (releasedBytes : ℕ) : Reading Value Unit := do
  let state ← Raise.get
  if state.leaseSize < releasedBytes then Raise.throw (.value "invalid parser reservation shrink")
  else if state.leaseReleased then Raise.throw (.runtime "parser reservation is released")
  else Raise.modify fun state => { state with
    leaseSize := state.leaseSize - releasedBytes, budgetUsed := state.budgetUsed - releasedBytes }

/-- `StreamParserRetainedLease.release`. -/
def release : Reading Value Unit := Raise.modify fun state =>
  if state.leaseReleased then state
  else { state with
    leaseReleased := true, leaseSize := 0, budgetUsed := state.budgetUsed - state.leaseSize }

variable (calls : EventStreamCalls Value)

/-- What the payload of a frame is: nothing, or a value. -/
def payloadOf (payload : Bytes) : Except Streaming.StreamError (Option Value) :=
  if payload = [] then .ok none
  else match calls.parseOwnedJsonValue payload with
    | .ok value => .ok (some value)
    | .error .notJson => .error (.protocol "AWS event-stream payload is not valid JSON")
    | .error (.raised error) => .error error

/-- A payload that is there is parsed and yielded. -/
def yieldPayload (payload : Bytes) : Reading Value Unit := do
  match ← Raise.ofExcept (payloadOf calls payload) with
  | some value => Raise.modify fun state => { state with yielded := state.yielded ++ [value] }
  | none => return ()

/-- The checksums of a frame. -/
def checkFrame (frame : Bytes) : Except Streaming.StreamError Unit :=
  if calls.crc32 (frame.take 8) % 2 ^ 32 ≠ fromBytes (slice frame 8 12) then
    .error (.protocol "invalid AWS event-stream prelude CRC")
  else if calls.crc32 (frame.take (frame.length - 4)) % 2 ^ 32 ≠ fromBytes
    (frame.drop (frame.length - 4)) then
    .error (.protocol "invalid AWS event-stream message CRC")
  else .ok ()

/-- A frame that has come: its checksums, and then its payload. -/
def openFrame (frame : Bytes) (headersLength : ℕ) : Reading Value Unit := do
  Raise.ofExcept (checkFrame calls frame)
  yieldPayload calls (slice frame (12 + headersLength) (frame.length - 4))

/-- The frames from `cursor` on, as far as they are whole. -/
def readFrames (pending : Bytes) (cursor : ℕ) : Reading Value ℕ :=
  if 12 ≤ pending.length - cursor then
    let totalLength := fromBytes (slice pending cursor (cursor + 4))
    let headersLength := fromBytes (slice pending (cursor + 4) (cursor + 8))
    if totalLength < 16 ∨ maxEventBytes < totalLength ∨ totalLength - 16 < headersLength then
      Raise.throw (.protocol "invalid AWS event-stream frame length")
    else if pending.length - cursor < totalLength then return cursor
    else do
      openFrame calls (slice pending cursor (cursor + totalLength)) headersLength
      readFrames pending (cursor + totalLength)
  else return cursor
termination_by pending.length - cursor
decreasing_by omega

/-- `if cursor: del pending[:cursor]`. -/
def dropFrames (cursor : ℕ) : Reading Value Unit :=
  if cursor = 0 then return ()
  else do
    Raise.modify fun state => { state with pending := state.pending.drop cursor }
    shrink cursor

/-- What is left is no longer than an event may be. -/
def checkPending : Reading Value Unit := do
  let state ← Raise.get
  if maxEventBytes < state.pending.length then
    Raise.throw (.bufferOverflow "AWS event-stream frame" maxEventBytes state.pending.length)
  else return ()

/-- A chunk of the response. -/
def readChunk (rawChunk : Bytes) : Reading Value Unit := do
  grow rawChunk.length
  Raise.modify fun state => { state with pending := state.pending ++ rawChunk }
  let state ← Raise.get
  let cursor ← readFrames calls state.pending 0
  dropFrames cursor
  checkPending

/-- `async for raw_chunk in iterator_factory()`. -/
def readChunks : List Bytes → Reading Value Unit
  | [] => return ()
  | rawChunk :: rest => do
    readChunk calls rawChunk
    readChunks rest

/-- `_iter_aws_eventstream_payloads`. -/
def iterAwsEventstreamPayloads (chunks : List Bytes) : Reading Value Unit :=
  Raise.tryFinally
    (do
      readChunks calls chunks
      let state ← Raise.get
      if state.pending ≠ [] then Raise.throw (.protocol "AWS event-stream ended with an incomplete frame"))
    (do
      Raise.modify fun state => { state with pending := [] }
      release)

/-! ### What the bytes in front say -/

/-- The length of the frame and of its headers. -/
def lengths (data : Bytes) : ℕ × ℕ := (fromBytes (slice data 0 4), fromBytes (slice data 4 8))

/-- A frame of a length that stands in it. -/
def readFrame (frame : Bytes) (headersLength : ℕ) : Except Streaming.StreamError (Option Value) := do
  checkFrame calls frame
  payloadOf calls (slice frame (12 + headersLength) (frame.length - 4))

/-- What the bytes in front say. -/
def verdict (data : Bytes) : Verdict Streaming.StreamError (Option Value) :=
  if data.length < 12 then .wait
  else if (lengths data).1 < 16 ∨ maxEventBytes < (lengths data).1 ∨ (lengths data).1 - 16 <
    (lengths data).2 then
    .refuse (.protocol "invalid AWS event-stream frame length")
  else if data.length < (lengths data).1 then .wait
  else match readFrame calls (data.take (lengths data).1) (lengths data).2 with
    | .ok value => .frame value (lengths data).1
    | .error error => .refuse error

theorem slice_append {data : Bytes} (more : Bytes) (start : ℕ) {stop : ℕ} (inside : stop ≤ data.length) :
    slice (data ++ more) start stop = slice data start stop := by
  rw [slice, slice, List.take_append_of_le_length inside]

theorem lengths_append {data : Bytes} (more : Bytes) (long : 12 ≤ data.length) :
    lengths (data ++ more) = lengths data := by
  rw [lengths, lengths, slice_append more 0 (by omega), slice_append more 4 (by omega)]

theorem verdict_wait {data : Bytes} : verdict calls data = .wait ↔ data.length < 12 ∨
    ¬ ((lengths data).1 < 16 ∨ maxEventBytes < (lengths data).1 ∨ (lengths data).1 - 16 <
      (lengths data).2) ∧
      data.length < (lengths data).1 := by
  rw [verdict]
  split_ifs with short bad waits
  · exact iff_of_true rfl (.inl short)
  · exact iff_of_false (fun same => by cases same) (by tauto)
  · exact iff_of_true rfl (.inr ⟨bad, waits⟩)
  · refine iff_of_false (fun same => ?_) (by tauto)
    cases read : readFrame calls (data.take (lengths data).1) (lengths data).2 <;> rw
      [read] at same <;> cases same

/-- **More bytes** change nothing unless the bytes wait for them. -/
theorem verdict_append {data : Bytes} (more : Bytes) (goesOn : verdict calls data ≠ .wait) :
    verdict calls (data ++ more) = verdict calls data := by
  have long : ¬ data.length < 12 := fun short => goesOn ((verdict_wait calls).mpr (.inl short))
  have longer : ¬ (data ++ more).length < 12 := by
    rw [List.length_append]
    omega
  rw [verdict, verdict, if_neg long, if_neg longer, lengths_append more (by omega)]
  by_cases bad : (lengths data).1 < 16 ∨ maxEventBytes < (lengths data).1 ∨ (lengths data).1 - 16 <
    (lengths data).2
  · rw [if_pos bad, if_pos bad]
  · have whole : ¬ data.length < (lengths data).1 :=
      fun waits => goesOn ((verdict_wait calls).mpr (.inr ⟨bad, waits⟩))
    have wholeStill : ¬ (data ++ more).length < (lengths data).1 := by
      rw [List.length_append]
      omega
    rw [if_neg bad, if_neg bad, if_neg whole, if_neg wholeStill, List.take_append_of_le_length (by omega)]

/-- **The framer of the stream.** -/
def framer : Framer UInt8 Streaming.StreamError (Option Value) where
  next := verdict calls
  bounded := by
    intro data value length said
    rw [verdict] at said
    split_ifs at said with short bad waits
    cases read : readFrame calls (data.take (lengths data).1) (lengths data).2 with
    | error error => rw [read] at said; cases said
    | ok found =>
      rw [read] at said
      cases said
      omega
  refuse_append := fun more said => (verdict_append calls more (by rw [said]; rintro ⟨⟩)).trans said
  frame_append := fun more said => (verdict_append calls more (by rw [said]; rintro ⟨⟩)).trans said

theorem length_of_wait {data : Bytes} (waits : (framer calls).next data = .wait) :
    data.length ≤ maxEventBytes := by
  rcases (verdict_wait calls).mp waits with short | ⟨fine, waits⟩
  · exact le_trans (le_of_lt short) (by decide)
  · omega

/-! ### The loops -/

/-- The frames of a framer are yielded. -/
def EventStream.yields (state : EventStream Value) (values : List (Option Value)) : EventStream Value :=
  { state with yielded := state.yielded ++ values.filterMap id }

theorem yields_cons (state : EventStream Value) (value : Option Value) (values : List (Option Value)) :
    (state.yields [value]).yields values = state.yields (value :: values) := by
  cases value with
  | none => simp [EventStream.yields]
  | some value => simp [EventStream.yields]

theorem slice_drop (data : Bytes) (cursor start stop : ℕ) :
    slice data (cursor + start) (cursor + stop) = slice (data.drop cursor) start stop := by
  rw [slice, slice, List.drop_take, List.drop_take, List.drop_drop, Nat.add_sub_add_left]

theorem openFrame_apply (frame : Bytes) (headersLength : ℕ) (state : EventStream Value) :
    openFrame calls frame headersLength state =
      match readFrame calls frame headersLength with
      | .ok value => (.ok (), state.yields [value])
      | .error error => (.error error, state) := by
  rw [readFrame, openFrame, Raise.bind_apply]
  cases checkFrame calls frame with
  | error error => rfl
  | ok checked =>
    show yieldPayload calls _ state = _
    rw [yieldPayload, Raise.bind_apply]
    show _ = match payloadOf calls (slice frame (12 + headersLength) (frame.length - 4)) with
      | .ok value => _
      | .error error => _
    rw [Raise.ofExcept_apply]
    cases payloadOf calls (slice frame (12 + headersLength) (frame.length - 4)) with
    | error error => rfl
    | ok value =>
      cases value with
      | none => simp [EventStream.yields]
      | some value => rfl

/-- The loop over the frames, one frame further. -/
theorem readFrames_step (pending : Bytes) (cursor : ℕ) (state : EventStream Value) :
    readFrames calls pending cursor state = match verdict calls (pending.drop cursor) with
      | .wait => (.ok cursor, state)
      | .refuse error => (.error error, state)
      | .frame value length => readFrames calls pending (cursor + length) (state.yields [value]) := by
  have total : slice pending cursor (cursor + 4) = slice (pending.drop cursor) 0 4 :=
      slice_drop pending cursor 0 4
  have headers := slice_drop pending cursor 4 8
  rw [readFrames, verdict, List.length_drop, total, headers]
  by_cases short : pending.length - cursor < 12
  · rw [if_neg (by omega), if_pos short]
    rfl
  · rw [if_pos (by omega), if_neg short]
    rw [lengths]
    dsimp only
    generalize fromBytes (slice (pending.drop cursor) 0 4) = totalLength
    generalize fromBytes (slice (pending.drop cursor) 4 8) = headersLength
    by_cases bad : totalLength < 16 ∨ maxEventBytes < totalLength ∨ totalLength - 16 < headersLength
    · rw [if_pos bad, if_pos bad]
      rfl
    · rw [if_neg bad, if_neg bad]
      by_cases waits : pending.length - cursor < totalLength
      · rw [if_pos waits, if_pos waits]
        rfl
      · have frame : slice pending cursor (cursor + totalLength) = (pending.drop cursor).take totalLength :=
          slice_drop pending cursor 0 totalLength
        rw [if_neg waits, if_neg waits, frame, Raise.bind_apply, openFrame_apply]
        cases readFrame calls ((pending.drop cursor).take totalLength) headersLength <;> rfl

/-- **The loop over the frames** takes frames off what has come. -/
theorem readFrames_eq (pending : Bytes) (left : Bytes) : ∀ {cursor : ℕ} {state : EventStream Value},
    pending.drop cursor = left → cursor ≤ pending.length → ∃ after,
      readFrames calls pending cursor state = after ∧
      after.2 = state.yields ((framer calls).drain left).1 ∧
      match ((framer calls).drain left).2 with
      | .ok rest => after.1 = .ok (pending.length - rest.length) ∧ pending.drop
        (pending.length - rest.length) = rest
      | .error error => after.1 = .error error := by
  induction left using @Framer.drain_induct _ _ _ (framer calls) with
  | wait left said =>
    intro cursor state isLeft inside
    refine ⟨_, rfl, ?_⟩
    have verdict : verdict calls (pending.drop cursor) = .wait := isLeft ▸ said
    have length : pending.length - left.length = cursor := by
      rw [← isLeft, List.length_drop]
      omega
    rw [readFrames_step, verdict, Framer.drain_wait said]
    dsimp only
    rw [length]
    exact ⟨by simp [EventStream.yields], rfl, isLeft⟩
  | refuse left error said =>
    intro cursor state isLeft inside
    refine ⟨_, rfl, ?_⟩
    have verdict : verdict calls (pending.drop cursor) = .refuse error := isLeft ▸ said
    rw [readFrames_step, verdict, Framer.drain_refuse said]
    exact ⟨by simp [EventStream.yields], rfl⟩
  | frame left value length said ih =>
    intro cursor state isLeft inside
    have verdict : verdict calls (pending.drop cursor) = .frame value length := isLeft ▸ said
    have bounded := ((framer calls).bounded said).2
    have isRest : pending.drop (cursor + length) = left.drop length := by rw [← isLeft, List.drop_drop]
    rw [← isLeft, List.length_drop] at bounded
    obtain ⟨after, reads, yields, ends⟩ := @ih _ (state.yields [value]) isRest (by omega)
    refine ⟨after, ?_, ?_, ?_⟩
    · rw [readFrames_step, verdict]
      exact reads
    · rw [yields, Framer.drain_frame said, yields_cons]
    · rw [Framer.drain_frame said]
      exact ends

/-- What the lease and the budget are, while a stream is read. -/
structure Keeps (before : ℤ) (state : EventStream Value) : Prop where
  unreleased : state.leaseReleased = false
  budget : state.budgetUsed = before + state.leaseSize

variable {state : EventStream Value}

theorem grow_apply (unreleased : state.leaseReleased = false) (bytes : ℕ) :
    grow bytes state = (.ok (), { state with
      budgetUsed := state.budgetUsed + bytes, leaseSize := state.leaseSize + bytes }) := by
  have no : ¬ state.leaseReleased = true := by rw [unreleased]; decide
  rw [grow, Raise.bind_apply, Raise.get_apply]
  show (if state.leaseReleased = true then _ else _ : Reading Value Unit) state = _
  rw [if_neg no]
  rfl

theorem dropFrames_apply (unreleased : state.leaseReleased = false) {cursor : ℕ}
    (enough : cursor ≤ state.leaseSize) : dropFrames cursor state = (.ok (), { state with
      pending := state.pending.drop cursor
      leaseSize := state.leaseSize - cursor
      budgetUsed := state.budgetUsed - cursor }) := by
  by_cases zero : cursor = 0
  · rw [dropFrames, if_pos zero, zero]
    simp
  · have no : ¬ state.leaseReleased = true := by rw [unreleased]; decide
    rw [dropFrames, if_neg zero, Raise.bind_apply, Raise.modify_apply]
    dsimp only
    rw [shrink, Raise.bind_apply, Raise.get_apply]
    dsimp only
    rw [if_neg (by omega), if_neg no]
    rfl

theorem checkPending_apply (small : state.pending.length ≤ maxEventBytes) :
    checkPending state = (.ok (), state) := by
  rw [checkPending, Raise.bind_apply, Raise.get_apply]
  dsimp only
  rw [if_neg (by omega)]
  rfl

/-- **A chunk.** -/
theorem readChunk_eq {before : ℤ} (keeps : Keeps before state)
    (size : state.leaseSize = state.pending.length) (chunk : Bytes) : ∃ outcome after,
      readChunk calls chunk state = (outcome, after) ∧ Keeps before after ∧
      after.yielded = (state.yields ((framer calls).drain (state.pending ++ chunk)).1).yielded ∧
      match ((framer calls).drain (state.pending ++ chunk)).2 with
      | .ok rest => outcome = .ok () ∧ after.pending = rest ∧ after.leaseSize = rest.length
      | .error error => outcome = .error error := by
  let grown : EventStream Value := { state with
    pending := state.pending ++ chunk
    budgetUsed := state.budgetUsed + chunk.length
    leaseSize := state.leaseSize + chunk.length }
  obtain ⟨⟨outcome, after⟩, reads, yields, ends⟩ :=
    @readFrames_eq _ calls (state.pending ++ chunk) _ 0 grown rfl (Nat.zero_le _)
  dsimp only at yields ends
  rw [readChunk, Raise.bind_apply, grow_apply keeps.unreleased]
  show ∃ outcome after, (readFrames calls (state.pending ++ chunk) 0 >>= fun cursor => do
    dropFrames cursor
    checkPending) _ = _ ∧ _
  rw [Raise.bind_apply, reads]
  rw [List.drop_zero] at yields ends
  have budget : state.budgetUsed + (chunk.length : ℤ) = before +
      ((state.leaseSize + chunk.length : ℕ) : ℤ) := by
    rw [keeps.budget]
    omega
  cases drained : (framer calls).drain (state.pending ++ chunk) with
  | mk values result =>
    rw [drained] at yields ends
    dsimp only at yields ends
    subst yields
    cases result with
    | error error =>
      dsimp only at ends
      subst ends
      exact ⟨_, _, rfl, ⟨keeps.unreleased, budget⟩, rfl, rfl⟩
    | ok rest =>
      obtain ⟨rfl, isRest⟩ := ends
      have waits := Framer.next_of_drain _ drained
      have small := length_of_wait calls waits
      have restLength : rest.length ≤ (state.pending ++ chunk).length := by
        rw [← isRest, List.length_drop]
        omega
      have enough : (state.pending ++ chunk).length - rest.length ≤ state.leaseSize + chunk.length := by
        rw [List.length_append, size]
        omega
      have drops := @dropFrames_apply _ (grown.yields values) keeps.unreleased _ enough
      dsimp only
      rw [Raise.bind_apply, drops]
      dsimp only
      have fits : ((state.pending ++ chunk).drop ((state.pending ++ chunk).length - rest.length)).length
          ≤ maxEventBytes := by
        rw [isRest]
        exact small
      rw [checkPending_apply fits]
      refine ⟨_, _, rfl, ⟨keeps.unreleased, ?_⟩, rfl, rfl, isRest, ?_⟩
      · show state.budgetUsed + (chunk.length : ℤ) - ((state.pending ++ chunk).length - rest.length : ℕ) =
          before + ((state.leaseSize + chunk.length -
            ((state.pending ++ chunk).length - rest.length) : ℕ) : ℤ)
        rw [List.length_append] at restLength ⊢
        omega
      · show state.leaseSize + chunk.length - ((state.pending ++ chunk).length - rest.length) = rest.length
        rw [List.length_append] at restLength ⊢
        omega

/-- **The chunks of a response.** -/
theorem readChunks_eq {before : ℤ} : (chunks : List Bytes) → {state : EventStream Value} →
    Keeps before state →
    state.leaseSize = state.pending.length → ∃ outcome after,
      readChunks calls chunks state = (outcome, after) ∧ Keeps before after ∧
      after.yielded = (state.yields ((framer calls).feed state.pending chunks).1).yielded ∧
      match ((framer calls).feed state.pending chunks).2 with
      | .ok rest => outcome = .ok () ∧ after.pending = rest
      | .error error => outcome = .error error
  | [], state, keeps, _ => ⟨_, state, rfl, keeps, (List.append_nil _).symm, rfl, rfl⟩
  | chunk :: chunks, state, keeps, size => by
    obtain ⟨outcome, between, reads, keepsHere, yields, ends⟩ := readChunk_eq calls keeps size chunk
    rw [readChunks, Raise.bind_apply, reads, Framer.feed]
    cases drained : (framer calls).drain (state.pending ++ chunk) with
    | mk values result =>
      rw [drained] at yields ends
      cases result with
      | error error =>
        dsimp only at ends
        subst ends
        exact ⟨_, between, rfl, keepsHere, yields, rfl⟩
      | ok rest =>
        obtain ⟨rfl, isRest, sizeHere⟩ := ends
        obtain ⟨outcome, after, readsMore, keepsMore, yieldsMore, endsMore⟩ :=
          readChunks_eq chunks keepsHere (by rw [sizeHere, isRest])
        rw [isRest] at yieldsMore endsMore
        refine ⟨outcome, after, readsMore, keepsMore, ?_, endsMore⟩
        rw [yieldsMore]
        show between.yielded ++ _ = state.yielded ++ _
        rw [yields]
        show state.yielded ++ _ ++ _ = _
        rw [List.append_assoc, ← List.filterMap_append]

/-- **The end**: the lease gives back what it holds. -/
theorem release_apply {before : ℤ} (keeps : Keeps before state) :
    (do
      Raise.modify fun state => { state with pending := [] }
      release : Reading Value Unit) state =
      (.ok (), { leaseReleased := true, budgetUsed := before, yielded := state.yielded }) := by
  have no : ¬ state.leaseReleased = true := by rw [keeps.unreleased]; decide
  have budget : state.budgetUsed - state.leaseSize = before := by
    rw [keeps.budget]
    omega
  show (Except.ok (), if state.leaseReleased = true then _ else _) = _
  rw [if_neg no]
  show (Except.ok (), EventStream.mk [] 0 true (state.budgetUsed - state.leaseSize) state.yielded) = _
  rw [budget]

/-- **The whole stream**: its outcome and what it yields are those of its bytes. -/
theorem iterAwsEventstreamPayloads_eq (chunks : List Bytes) (budget : ℤ) :
    iterAwsEventstreamPayloads calls chunks { budgetUsed := budget } =
      (match ((framer calls).drain chunks.flatten).2 with
        | .ok rest =>
          if rest = [] then .ok () else .error (.protocol "AWS event-stream ended with an incomplete frame")
        | .error error => .error error,
      { leaseReleased := true, budgetUsed := budget
        yielded := ((framer calls).drain chunks.flatten).1.filterMap id }) := by
  have waits : (framer calls).next [] = .wait := (@verdict_wait _ calls []).mpr (.inl (by decide))
  obtain ⟨outcome, after, reads, keeps, yields, ends⟩ :=
    @readChunks_eq _ calls budget chunks { budgetUsed := budget } ⟨rfl, (add_zero budget).symm⟩ rfl
  rw [show EventStream.pending { budgetUsed := budget } = [] from rfl, Framer.feed_eq chunks waits,
    List.nil_append] at yields ends
  have called {raised : Except Streaming.StreamError Unit} (body : (do
      readChunks calls chunks
      let state ← Raise.get
      if state.pending ≠ [] then
        Raise.throw (.protocol "AWS event-stream ended with an incomplete frame") : Reading Value Unit)
      { budgetUsed := budget } = (raised, after)) :
      iterAwsEventstreamPayloads calls chunks { budgetUsed := budget } =
        (raised, { leaseReleased := true, budgetUsed := budget, yielded := after.yielded }) := by
    rw [iterAwsEventstreamPayloads, Raise.tryFinally, body]
    dsimp only
    rw [release_apply keeps]
  have yielded : after.yielded = ((framer calls).drain chunks.flatten).1.filterMap id := yields
  rw [← yielded]
  refine called ?_
  rw [Raise.bind_apply, reads]
  cases drained : ((framer calls).drain chunks.flatten).2 with
  | error error =>
    rw [drained] at ends
    dsimp only at ends
    subst ends
    rfl
  | ok rest =>
    rw [drained] at ends
    obtain ⟨rfl, rfl⟩ := ends
    dsimp only
    rw [Raise.bind_apply, Raise.get_apply]
    dsimp only
    by_cases empty : after.pending = []
    · rw [if_neg (not_not.mpr empty), if_pos empty]
      rfl
    · rw [if_pos empty, if_neg empty]
      rfl

/-! ### Well-formed frames -/

/-- A number of four bytes. -/
def toBytes (value : ℕ) : Bytes :=
  [UInt8.ofNat (value / 2 ^ 24), UInt8.ofNat (value / 2 ^ 16), UInt8.ofNat (value / 2 ^ 8),
    UInt8.ofNat value]

theorem fromBytes_toBytes {value : ℕ} (small : value < 2 ^ 32) : fromBytes (toBytes value) = value := by
  simp only [fromBytes, toBytes, List.foldl_cons, List.foldl_nil, UInt8.toNat_ofNat']
  omega

/-- A frame. -/
structure Frame where
  headers : Bytes
  payload : Bytes

namespace Frame

variable (frame : Frame)

/-- Prelude and checksums are twelve and four bytes. -/
def totalLength : ℕ := 16 + frame.headers.length + frame.payload.length

/-- The lengths of the prelude. -/
def lengths : Bytes := toBytes frame.totalLength ++ toBytes frame.headers.length

/-- All but the checksum of the frame. -/
def content : Bytes :=
  frame.lengths ++ toBytes (calls.crc32 frame.lengths % 2 ^ 32) ++ frame.headers ++ frame.payload

/-- The bytes of the frame. -/
def wire : Bytes := frame.content calls ++ toBytes (calls.crc32 (frame.content calls) % 2 ^ 32)

/-- The value of the payload, if there is one. -/
def value : Option Value :=
  match payloadOf calls frame.payload with
  | .ok value => value
  | .error _ => none

/-- A frame that is not too long, and whose payload is empty or JSON. -/
structure WellFormed : Prop where
  short : frame.totalLength ≤ maxEventBytes
  parsed : frame.payload = [] ∨ ∃ value, calls.parseOwnedJsonValue frame.payload = .ok value

theorem slice_between {data front middle behind : Bytes} {start stop : ℕ}
    (isData : data = front ++ middle ++ behind)
    (isStart : start = front.length) (isStop : stop = start + middle.length) :
      slice data start stop = middle := by
  have taken : data.take stop = front ++ middle := by
    rw [isData]
    exact List.take_left' (by rw [List.length_append, isStop, isStart])
  rw [slice, taken]
  exact List.drop_left' isStart.symm

theorem length_toBytes (value : ℕ) : (toBytes value).length = 4 := rfl

theorem length_lengths : frame.lengths.length = 8 := rfl

theorem length_content : (frame.content calls).length
    = 12 + frame.headers.length + frame.payload.length := by
  rw [content, List.length_append, List.length_append, List.length_append, length_lengths, length_toBytes]

theorem length_wire : (frame.wire calls).length = frame.totalLength := by
  rw [wire, List.length_append, length_content, length_toBytes, totalLength]
  omega

theorem lengths_wire (short : frame.totalLength ≤ maxEventBytes) :
    AwsEventStream.lengths (frame.wire calls) = (frame.totalLength, frame.headers.length) := by
  have isWire : frame.wire calls = toBytes frame.totalLength ++ toBytes frame.headers.length ++
      (toBytes (calls.crc32 frame.lengths % 2 ^ 32) ++ frame.headers ++ frame.payload ++
        toBytes (calls.crc32 (frame.content calls) % 2 ^ 32)) := by
    simp only [wire, content, lengths, List.append_assoc]
  have limit : maxEventBytes < 2 ^ 32 := by decide
  have total : slice (frame.wire calls) 0 4 = toBytes frame.totalLength :=
    @slice_between _ [] _ _ _ _ (isWire.trans (List.append_assoc _ _ _)) rfl rfl
  have headers : slice (frame.wire calls) 4 8 = toBytes frame.headers.length := slice_between isWire rfl rfl
  rw [AwsEventStream.lengths, total, headers, fromBytes_toBytes (lt_of_le_of_lt short limit),
    fromBytes_toBytes]
  rw [totalLength] at short
  omega

theorem checkFrame_wire : checkFrame calls (frame.wire calls) = .ok () := by
  have small (value : ℕ) : fromBytes (toBytes (value % 2 ^ 32)) = value % 2 ^ 32 :=
    fromBytes_toBytes (Nat.mod_lt _ (by decide))
  have ends : (frame.wire calls).length - 4 = (frame.content calls).length := by
    rw [length_wire, length_content, totalLength]
    omega
  have isWire : frame.wire calls = frame.lengths ++ toBytes (calls.crc32 frame.lengths % 2 ^ 32) ++
      (frame.headers ++ frame.payload ++ toBytes (calls.crc32 (frame.content calls) % 2 ^ 32)) := by
    simp only [wire, content, List.append_assoc]
  have prelude : (frame.wire calls).take 8 = frame.lengths := by
    rw [isWire, List.append_assoc]
    exact List.take_left' frame.length_lengths
  have checksum : slice (frame.wire calls) 8 12 = toBytes (calls.crc32 frame.lengths % 2 ^ 32) :=
    slice_between isWire rfl rfl
  have content : (frame.wire calls).take ((frame.wire calls).length - 4) = frame.content calls := by
    rw [ends]
    exact List.take_left
  have last : (frame.wire calls).drop ((frame.wire calls).length - 4) =
      toBytes (calls.crc32 (frame.content calls) % 2 ^ 32) := by
    rw [ends]
    exact List.drop_left
  rw [checkFrame, prelude, checksum, content, last, small, small, if_neg (not_not.mpr rfl), if_neg
    (not_not.mpr rfl)]

theorem payload_wire :
    slice (frame.wire calls) (12 + frame.headers.length) ((frame.wire calls).length - 4)
      = frame.payload := by
  refine @slice_between _ (frame.lengths ++ toBytes (calls.crc32 frame.lengths % 2 ^ 32) ++ frame.headers)
    _ _ _ _ rfl ?_ ?_
  · rw [List.length_append, List.length_append, length_lengths, length_toBytes]
  · rw [length_wire, totalLength]
    omega

/-- **A well-formed frame** is read. -/
theorem verdict_wire {frame : Frame} (wellFormed : frame.WellFormed calls) :
    verdict calls (frame.wire calls) = .frame (frame.value calls) (frame.wire calls).length := by
  have fine : ¬ (frame.totalLength < 16 ∨ maxEventBytes < frame.totalLength ∨
      frame.totalLength - 16 < frame.headers.length) := by
    have := wellFormed.short
    rw [totalLength] at this ⊢
    omega
  have long : ¬ (frame.wire calls).length < 12 := by
    rw [length_wire, totalLength]
    omega
  have whole : ¬ (frame.wire calls).length < frame.totalLength := by
    rw [length_wire]
    exact lt_irrefl _
  have payload : payloadOf calls frame.payload = .ok (frame.value calls) := by
    rw [value]
    rcases wellFormed.parsed with empty | ⟨value, parsed⟩
    · rw [payloadOf, if_pos empty]
    · rw [payloadOf]
      split_ifs with empty
      · rfl
      · rw [parsed]
  have all : (frame.wire calls).take frame.totalLength = frame.wire calls := by
    rw [← length_wire calls]
    exact List.take_length
  rw [verdict, if_neg long, lengths_wire calls frame wellFormed.short]
  dsimp only
  rw [if_neg fine, if_neg whole, all, readFrame, checkFrame_wire, payload_wire]
  show (match payloadOf calls frame.payload with | .ok value => _ | .error error => _) = _
  rw [payload, length_wire]

/-- **A frame that has begun** waits for its rest. -/
theorem verdict_part {frame : Frame} (wellFormed : frame.WellFormed calls) {part rest : Bytes}
    (isWire : part ++ rest = frame.wire calls) (unfinished : rest ≠ []) : verdict calls part = .wait := by
  refine (verdict_wait calls).mpr ?_
  by_cases short : part.length < 12
  · exact .inl short
  · have same : AwsEventStream.lengths part = (frame.totalLength, frame.headers.length) := by
      rw [← lengths_append rest (by omega), isWire]
      exact lengths_wire calls frame wellFormed.short
    have sum : part.length + rest.length = frame.totalLength := by
      rw [← List.length_append, isWire, length_wire]
    have nonempty := List.length_pos_of_ne_nil unfinished
    have fine := wellFormed.short
    rw [same]
    refine .inr ⟨?_, by dsimp only; omega⟩
    dsimp only
    rw [totalLength] at fine ⊢
    omega

end Frame

/-! ### What is yielded -/

/-- The values of frames: those of the frames whose payload is not empty. -/
def values (frames : List Frame) : List Value := frames.filterMap (Frame.value calls)

/-- **The payloads of a stream**, however it is cut into chunks: of frames in a row their values, in order;
where the stream breaks off inside a frame, those before it and then an error; and what is yielded of any
bytes depends on the bytes alone. At the end the budget is what it was. -/
theorem payloads_framed (chunks : List Bytes) (budget : ℤ) :
    (∀ frames : List Frame, (∀ frame ∈ frames, frame.WellFormed calls) →
      chunks.flatten = frames.flatMap (Frame.wire calls) →
      iterAwsEventstreamPayloads calls chunks { budgetUsed := budget } =
        (.ok (), { leaseReleased := true, budgetUsed := budget, yielded := values calls frames })) ∧
    (∀ (frames : List Frame) (frame : Frame) (part rest : Bytes),
      (∀ other ∈ frames, other.WellFormed calls) →
      frame.WellFormed calls → part ++ rest = frame.wire calls → part ≠ [] → rest ≠ [] →
      chunks.flatten = frames.flatMap (Frame.wire calls) ++ part →
      iterAwsEventstreamPayloads calls chunks { budgetUsed := budget } =
        (.error (.protocol "AWS event-stream ended with an incomplete frame"),
          { leaseReleased := true, budgetUsed := budget, yielded := values calls frames })) ∧
    (∀ others : List Bytes, others.flatten = chunks.flatten →
      iterAwsEventstreamPayloads calls others { budgetUsed := budget } =
        iterAwsEventstreamPayloads calls chunks { budgetUsed := budget }) ∧
    (iterAwsEventstreamPayloads calls chunks { budgetUsed := budget }).2.budgetUsed = budget := by
  have waits : (framer calls).next [] = .wait := (@verdict_wait _ calls []).mpr (.inl (by decide))
  have mapped (frames : List Frame) : (frames.map (Frame.value calls)).filterMap id
      = values calls frames := by
    rw [List.filterMap_map]
    rfl
  refine ⟨fun frames wellFormed isStream => ?_, ?_, fun others same => ?_, ?_⟩
  · have drained := @Framer.drain_frames _ _ _ (framer calls) _ (Frame.wire calls)
      (Frame.value calls) [] frames fun frame among =>
      Frame.verdict_wire calls (wellFormed frame among)
    rw [List.append_nil, Framer.drain_wait waits, List.append_nil] at drained
    rw [iterAwsEventstreamPayloads_eq, isStream, drained]
    dsimp only
    rw [if_pos rfl, mapped]
  · intro frames frame part rest wellFormed isFrame isWire begun unfinished isStream
    have drained := @Framer.drain_frames _ _ _ (framer calls) _ (Frame.wire calls)
        (Frame.value calls) part frames fun frame among =>
      Frame.verdict_wire calls (wellFormed frame among)
    have held : (framer calls).next part = .wait := Frame.verdict_part calls isFrame isWire unfinished
    rw [Framer.drain_wait held, List.append_nil] at drained
    rw [iterAwsEventstreamPayloads_eq, isStream, drained]
    dsimp only
    rw [if_neg begun, mapped]
  · rw [iterAwsEventstreamPayloads_eq, iterAwsEventstreamPayloads_eq, same]
  · rw [iterAwsEventstreamPayloads_eq]

/-! ### A stream -/

/-- `zlib.crc32`. -/
def crc32 (data : Bytes) : ℕ :=
  let shift (crc : ℕ) : ℕ := if crc % 2 = 1 then (crc / 2) ^^^ 0xEDB88320 else crc / 2
  data.foldl (fun crc byte => shift^[8] (crc ^^^ byte.toNat)) 0xFFFFFFFF ^^^ 0xFFFFFFFF

example : crc32 [0, 0, 0, 16, 0, 0, 0, 0] = 0x05C248EB := by decide +kernel

/-- A header with a text: the lengths of both, and the type of a text. -/
def textHeader (name value : String) : Bytes :=
  UInt8.ofNat name.length :: Utf8.lit name ++ 7 :: 0 :: UInt8.ofNat value.length :: Utf8.lit value

/-- A frame with an empty object and one with an empty list. -/
def objectAndList : List Frame :=
  [⟨textHeader ":content-type" "application/json" ++ textHeader ":event-type" "chunk",
      Utf8.lit "\x7b\x7d"⟩,
    ⟨textHeader ":event-type" "chunk", Utf8.lit "[]"⟩]

/-- Two frames with headers, cut inside the first prelude and inside the second frame. -/
theorem payloads_framed_object :
    let calls : EventStreamCalls PyData :=
      ⟨crc32, fun payload => if payload = Utf8.lit "\x7b\x7d" then .ok (PyData.dict [])
        else if payload = Utf8.lit "[]" then .ok (PyData.list []) else .error .notJson⟩
    let wire := objectAndList.flatMap (Frame.wire calls)
    iterAwsEventstreamPayloads calls [wire.take 5, (wire.drop 5).take 100, (wire.drop 5).drop 100]
        { budgetUsed := 0 } =
      (.ok (), { leaseReleased := true, budgetUsed := 0, yielded := [PyData.dict [], PyData.list []] }) := by
  intro calls wire
  refine (payloads_framed calls _ 0).1 objectAndList ?_ ?_
  · intro frame among
    simp only [objectAndList, List.mem_cons, List.not_mem_nil, or_false] at among
    rcases among with rfl | rfl
    · exact ⟨by decide, .inr ⟨PyData.dict [], rfl⟩⟩
    · exact ⟨by decide, .inr ⟨PyData.list [], rfl⟩⟩
  · rw [List.flatten_cons, List.flatten_cons, List.flatten_cons, List.flatten_nil, List.append_nil,
      List.take_append_drop, List.take_append_drop]

end UniApi.Providers.AwsEventStream
