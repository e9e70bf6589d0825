/-
**`RequestBodyDecompressionMiddleware`: the body of a request is read.**

A body is passed on as it is, or it is read as a whole and decompressed. Every chunk is charged by what
it takes in memory before it is kept. The calls of both ways are one caller of the account.

* `reading_solvent`: the middleware never releases more than it has requested;
* `lease_covers_target`: what a lease is charged for a body.
-/

import UniApi.Middleware.BodyCredit

namespace UniApi.Middleware

open UniApi.Lib

/-- What the middleware works with: its limits (none for a body that is bounded by resources only), the
estimator of JSON, and the decoder of zstd. -/
structure Decoding (σ δ : Type) where
  identityLimit : Option Nat
  compressedLimit : Option Nat
  decompressedLimit : Option Nat
  /-- `IncrementalJSONMemoryEstimator.feed`; `none` where a document is too complex. -/
  feed : σ → Bytes → Option (Nat × σ)
  /-- `_ensure_complete_zstd_frames`. -/
  ensureCompleteZstdFrames : Bytes → Option Nat
  /-- `zstd.frame_content_size`, negative where it is not known. -/
  frameContentSize : Bytes → Option Int
  /-- `decoder.stream_reader`. -/
  streamReader : Bytes → Nat → δ
  /-- `reader.read`. -/
  read : δ → Nat → Option (Bytes × δ)

/-- `_RequestBodyMemoryBudget`. -/
structure Budget (σ : Type) where
  estimator : Option σ
  observedBytes : Nat
  reservedTarget : Nat

/-- The stream reader of a body, what it has given, the budget, and the bytes that are reserved for its
window and for the compressed body. -/
structure Stream (σ δ : Type) where
  reader : δ
  decoded : Nat
  budget : Budget σ
  window : Nat
  compressed : Nat

/-- Where the middleware waits. -/
inductive Reading (σ δ : Type) where
  | start (zstd : Bool) (budget : Budget σ)
  /-- `limited_receive`. -/
  | identity (total : Nat) (budget : Budget σ)
  | identityFed (total : Nat) (budget : Budget σ) (frame : Frame)
  | identityReserved (total : Nat) (more : Bool) (budget : Budget σ) (target : Nat)
  /-- `_read_body`. -/
  | compressed (body : Bytes) (budget : Budget σ)
  | compressedReserved (body : Bytes) (frame : Frame) (budget : Budget σ)
  /-- `_decompress_zstd`. -/
  | inspected (body : Bytes) (budget : Budget σ)
  | windowReserved (body : Bytes) (window allowed : Nat) (budget : Budget σ)
  | chunkRead (stream : Stream σ δ)
  | chunkFed (stream : Stream σ δ) (chunk : Bytes)
  | chunkReserved (stream : Stream σ δ) (chunk : Bytes) (target : Nat)
  | chunkRefused (stream : Stream σ δ)
  | collected (stream : Stream σ δ)
  | windowReleased (decoded : Bool) (target compressed : Nat)
  | compressedReleased (target : Nat)
  | refused (target : Nat)
  | ended (target : Nat)

/-- What a budget makes of a chunk. -/
inductive Charge (σ : Type) where
  | tooComplex
  | regressed
  | additional (bytes : Nat) (budget : Budget σ) (target : Nat)

section Read

variable {σ δ : Type} (decoding : Decoding σ δ)

/-- `reserve_chunk`, before its callback: the budget still has its old target. -/
def chargeChunk (budget : Budget σ) (chunk : Bytes) : Charge σ :=
  match budget.estimator with
  | some estimator =>
    match decoding.feed estimator chunk with
    | none => .tooComplex
    | some (target, estimator) =>
      if target < budget.reservedTarget then .regressed
      else .additional (target - budget.reservedTarget) { budget with estimator := some estimator }
        target
  | none =>
    let observed := budget.observedBytes + chunk.length
    if observed * 4 < budget.reservedTarget then .regressed
    else .additional (observed * 4 - budget.reservedTarget)
      { budget with observedBytes := observed } (observed * 4)

/-- `limited_receive` after a message. -/
def identityPassed (total : Nat) (more : Bool) (budget : Budget σ) : Reading σ δ × Call :=
  if more then (.identity total budget, .receive) else (.ended budget.reservedTarget, .finish)

/-- `limited_receive` with a chunk. -/
def identityCharged (total : Nat) (budget : Budget σ) (frame : Frame) : Reading σ δ × Call :=
  match chargeChunk decoding budget frame.body with
  | .tooComplex => (.refused budget.reservedTarget, .reserve 0)
  | .regressed => (.ended budget.reservedTarget, .finish)
  | .additional bytes budget target =>
    if bytes = 0 then identityPassed total frame.more { budget with reservedTarget := target }
    else (.identityReserved total frame.more budget target, .reserve bytes)

/-- `limited_receive` with a message. -/
def identityReceived (total : Nat) (budget : Budget σ) (frame : Frame) : Reading σ δ × Call :=
  if frame.body.isEmpty then identityPassed total frame.more budget
  else
    let total := total + frame.body.length
    if decoding.identityLimit.any (· < total) then (.refused budget.reservedTarget, .reserve 0)
    -- an estimator is fed in another thread
    else if budget.estimator.isSome then (.identityFed total budget frame, .compute)
    else identityCharged decoding total budget frame

/-- `_read_body` after a message. -/
def compressedRead (body : Bytes) (more : Bool) (budget : Budget σ) : Reading σ δ × Call :=
  if more then (.compressed body budget, .receive) else (.inspected body budget, .compute)

/-- `_read_body` with a message. -/
def compressedReceived (body : Bytes) (budget : Budget σ) (frame : Frame) : Reading σ δ × Call :=
  if frame.body.isEmpty then compressedRead body frame.more budget
  else if decoding.compressedLimit.any (· < body.length + frame.body.length) then
    (.ended budget.reservedTarget, .finish)
  else (.compressedReserved body frame budget, .reserve frame.body.length)

/-- The decoder of `_decompress_zstd`. -/
def streamOpened (body : Bytes) (window allowed : Nat) (budget : Budget σ) : Reading σ δ × Call :=
  (.chunkRead
    { reader := decoding.streamReader body allowed
      decoded := 0
      budget := budget
      window := window
      compressed := body.length }, .compute)

/-- `allowed_window_size`. -/
def allowedWindowSize (window : Nat) : Nat :=
  match decoding.decompressedLimit with
  | none => max 1024 window
  | some limit => max 1024 (limit + max 1024 (limit / 8))

/-- `_decompress_zstd` with the window of a body. -/
def windowInspected (body : Bytes) (window : Nat) (budget : Budget σ) : Reading σ δ × Call :=
  let allowed := allowedWindowSize decoding window
  if decoding.decompressedLimit.isSome && allowed < window then
    (.ended budget.reservedTarget, .finish)
  else if window ≠ 0 then (.windowReserved body window allowed budget, .reserve window)
  else streamOpened decoding body window allowed budget

/-- `_decompress_zstd` with the body. -/
def bodyInspected (body : Bytes) (budget : Budget σ) : Reading σ δ × Call :=
  match decoding.ensureCompleteZstdFrames body, decoding.frameContentSize body with
  | some window, some declared =>
    if decoding.decompressedLimit.any fun limit => 0 ≤ declared ∧ limit < declared then
      (.ended budget.reservedTarget, .finish)
    else windowInspected decoding body window budget
  | _, _ => (.ended budget.reservedTarget, .finish)

/-- What follows `_decompress_zstd`. -/
def decompressed (decoded : Bool) (target compressed : Nat) : Reading σ δ × Call :=
  if decoded && compressed ≠ 0 then (.compressedReleased target, .release compressed)
  else (.ended target, .finish)

/-- The `finally` of `_decompress_zstd`. -/
def streamClosed (stream : Stream σ δ) (decoded : Bool) : Reading σ δ × Call :=
  let target := stream.budget.reservedTarget
  if stream.window ≠ 0 then
    (.windowReleased decoded target stream.compressed, .release stream.window)
  else decompressed decoded target stream.compressed

/-- `reserve_chunk` in the loop of `_decompress_zstd`. -/
def chunkCharged (stream : Stream σ δ) (chunk : Bytes) : Reading σ δ × Call :=
  match chargeChunk decoding stream.budget chunk with
  | .tooComplex => (.chunkRefused stream, .reserve 0)
  | .regressed => streamClosed stream false
  | .additional bytes budget target =>
    if bytes = 0 then
      (.chunkRead { stream with
        decoded := stream.decoded + chunk.length
        budget := { budget with reservedTarget := target } }, .compute)
    else (.chunkReserved { stream with budget := budget } chunk target, .reserve bytes)

/-- The loop of `_decompress_zstd`. -/
def chunkReceived (stream : Stream σ δ) : Reading σ δ × Call :=
  let remaining := decoding.decompressedLimit.map (· - stream.decoded)
  match decoding.read stream.reader (remaining.elim 65536 fun remaining => min 65536 (remaining + 1)) with
  | none => streamClosed stream false
  | some (chunk, reader) =>
    let stream := { stream with reader := reader }
    if chunk.isEmpty then (.collected stream, .compute)
    else if remaining.any (· < chunk.length) then (.chunkRefused stream, .reserve 0)
    else if stream.budget.estimator.isSome then (.chunkFed stream chunk, .compute)
    else chunkCharged decoding stream chunk

/-- What the middleware does with an answer. -/
def readNext (reading : Reading σ δ) (answer : Answer) : Reading σ δ × Call :=
  match reading, answer with
  | .start false budget, .done => (.identity 0 budget, .receive)
  | .start true budget, .done => (.compressed [] budget, .receive)
  | .identity total budget, .message frame => identityReceived decoding total budget frame
  | .identity _ budget, _ => (.ended budget.reservedTarget, .finish)
  | .identityFed total budget frame, .done => identityCharged decoding total budget frame
  | .identityFed _ budget _, _ => (.ended budget.reservedTarget, .finish)
  | .identityReserved total more budget target, .done =>
    identityPassed total more { budget with reservedTarget := target }
  | .identityReserved _ _ budget _, _ => (.ended budget.reservedTarget, .finish)
  | .compressed body budget, .message frame => compressedReceived decoding body budget frame
  | .compressed _ budget, _ => (.ended budget.reservedTarget, .finish)
  | .compressedReserved body frame budget, .done =>
    compressedRead (body ++ frame.body) frame.more budget
  | .compressedReserved _ _ budget, _ => (.ended budget.reservedTarget, .finish)
  | .inspected body budget, .done => bodyInspected decoding body budget
  | .inspected _ budget, _ => (.ended budget.reservedTarget, .finish)
  | .windowReserved body window allowed budget, .done =>
    streamOpened decoding body window allowed budget
  | .windowReserved _ _ _ budget, _ => (.ended budget.reservedTarget, .finish)
  | .chunkRead stream, .done => chunkReceived decoding stream
  | .chunkFed stream chunk, .done => chunkCharged decoding stream chunk
  | .chunkReserved stream chunk target, .done =>
    (.chunkRead { stream with
      decoded := stream.decoded + chunk.length
      budget := { stream.budget with reservedTarget := target } }, .compute)
  | .collected stream, .done => streamClosed stream true
  | .chunkRead stream, _ => streamClosed stream false
  | .chunkFed stream _, _ => streamClosed stream false
  | .chunkReserved stream _ _, _ => streamClosed stream false
  | .chunkRefused stream, _ => streamClosed stream false
  | .collected stream, _ => streamClosed stream false
  | .windowReleased decoded target compressed, .done => decompressed decoded target compressed
  | .windowReleased _ target _, _ => (.ended target, .finish)
  | .compressedReleased target, _ => (.ended target, .finish)
  | .refused target, _ => (.ended target, .finish)
  | .start _ budget, _ => (.ended budget.reservedTarget, .finish)
  | .ended target, _ => (.ended target, .finish)

/-- The middleware as a caller. -/
def readBody : Caller (Reading σ δ) where
  next := readNext decoding

/-! ### What is charged -/

/-- `_reserved_target` of the budget, where the middleware waits. -/
def Reading.target : Reading σ δ → Nat
  | .start _ budget => budget.reservedTarget
  | .identity _ budget => budget.reservedTarget
  | .identityFed _ budget _ => budget.reservedTarget
  | .identityReserved _ _ budget _ => budget.reservedTarget
  | .compressed _ budget => budget.reservedTarget
  | .compressedReserved _ _ budget => budget.reservedTarget
  | .inspected _ budget => budget.reservedTarget
  | .windowReserved _ _ _ budget => budget.reservedTarget
  | .chunkRead stream => stream.budget.reservedTarget
  | .chunkFed stream _ => stream.budget.reservedTarget
  | .chunkReserved stream _ _ => stream.budget.reservedTarget
  | .chunkRefused stream => stream.budget.reservedTarget
  | .collected stream => stream.budget.reservedTarget
  | .windowReleased _ target _ => target
  | .compressedReleased target => target
  | .refused target => target
  | .ended target => target

/-- The bytes that the middleware holds besides its target. -/
def Reading.besides : Reading σ δ → Answer → Nat
  | .identityReserved _ _ budget target, .done => target - budget.reservedTarget
  | .compressed body _, _ => body.length
  | .compressedReserved body frame _, .done => body.length + frame.body.length
  | .compressedReserved body _ _, _ => body.length
  | .inspected body _, _ => body.length
  | .windowReserved body window _ _, .done => body.length + window
  | .windowReserved body _ _ _, _ => body.length
  | .chunkRead stream, _ => stream.window + stream.compressed
  | .chunkFed stream _, _ => stream.window + stream.compressed
  | .chunkReserved stream _ target, .done =>
    stream.window + stream.compressed + (target - stream.budget.reservedTarget)
  | .chunkReserved stream _ _, _ => stream.window + stream.compressed
  | .chunkRefused stream, _ => stream.window + stream.compressed
  | .collected stream, _ => stream.window + stream.compressed
  | .windowReleased _ _ length, _ => length
  | _, _ => 0

/-- The bytes that the middleware needs to have requested. -/
def Reading.backing (reading : Reading σ δ) (answer : Answer) : Nat :=
  reading.target + reading.besides answer

/-- A chunk is charged by the difference of the targets, and the budget keeps its old target. -/
theorem chargeChunk_additional {budget after : Budget σ} {chunk : Bytes} {bytes target : Nat}
    (charged : chargeChunk decoding budget chunk = .additional bytes after target) :
    bytes + budget.reservedTarget = target ∧ after.reservedTarget = budget.reservedTarget := by
  unfold chargeChunk at charged
  dsimp only at charged
  repeat' split at charged
  all_goals cases charged
  all_goals exact ⟨by omega, rfl⟩

/-- A next call that is covered by what was needed before. -/
def Covered (before : Nat) (next : Reading σ δ × Call) : Prop :=
  Covers next.1.backing before next.2

section Covered

variable {decoding}

theorem covered_ended {before target : Nat} (enough : target ≤ before) :
    Covered before ((.ended target, .finish) : Reading σ δ × Call) :=
  fun _ => enough

theorem covered_refused {before target : Nat} (enough : target ≤ before) :
    Covered before ((.refused target, .reserve 0) : Reading σ δ × Call) :=
  ⟨enough, enough⟩

theorem covered_identityPassed {before total : Nat} {more : Bool} {budget : Budget σ}
    (enough : budget.reservedTarget ≤ before) :
    Covered before (identityPassed total more budget : Reading σ δ × Call) := by
  unfold identityPassed
  split
  · exact fun _ => enough
  · exact covered_ended enough

theorem covered_identityCharged (total : Nat) (budget : Budget σ) (frame : Frame) :
    Covered budget.reservedTarget (identityCharged decoding total budget frame) := by
  unfold identityCharged
  cases charged : chargeChunk decoding budget frame.body with
  | tooComplex => exact covered_refused (Nat.le_refl _)
  | regressed => exact covered_ended (Nat.le_refl _)
  | additional bytes after target =>
    obtain ⟨sum, same⟩ := chargeChunk_additional decoding charged
    dsimp only
    split
    · exact covered_identityPassed (by dsimp only; omega)
    · show after.reservedTarget + (target - after.reservedTarget) ≤ budget.reservedTarget + bytes ∧
        after.reservedTarget + 0 ≤ budget.reservedTarget
      omega

theorem covered_identityReceived (total : Nat) (budget : Budget σ) (frame : Frame) :
    Covered budget.reservedTarget (identityReceived decoding total budget frame) := by
  unfold identityReceived
  dsimp only
  split
  · exact covered_identityPassed (Nat.le_refl _)
  · split
    · exact covered_refused (Nat.le_refl _)
    · split
      · exact fun _ => Nat.le_refl _
      · exact covered_identityCharged _ budget frame

theorem covered_compressedRead {before : Nat} {body : Bytes} {more : Bool} {budget : Budget σ}
    (enough : budget.reservedTarget + body.length ≤ before) :
    Covered before (compressedRead body more budget : Reading σ δ × Call) := by
  unfold compressedRead
  split <;> exact fun _ => enough

theorem covered_compressedReceived (body : Bytes) (budget : Budget σ) (frame : Frame) :
    Covered (budget.reservedTarget + body.length) (compressedReceived decoding body budget frame) := by
  unfold compressedReceived
  split
  · exact covered_compressedRead (Nat.le_refl _)
  · split
    · exact covered_ended (Nat.le_add_right ..)
    · exact ⟨Nat.le_of_eq (Nat.add_assoc ..).symm, Nat.le_refl _⟩

theorem covered_streamOpened {before : Nat} {body : Bytes} {window allowed : Nat}
    {budget : Budget σ} (enough : budget.reservedTarget + (window + body.length) ≤ before) :
    Covered before (streamOpened decoding body window allowed budget) :=
  fun _ => enough

theorem covered_windowInspected (body : Bytes) (window : Nat) (budget : Budget σ) :
    Covered (budget.reservedTarget + body.length) (windowInspected decoding body window budget) := by
  unfold windowInspected
  dsimp only
  split
  · exact covered_ended (Nat.le_add_right ..)
  · split
    · exact ⟨Nat.le_of_eq (Nat.add_assoc ..).symm, Nat.le_refl _⟩
    · exact covered_streamOpened (by omega)

theorem covered_bodyInspected (body : Bytes) (budget : Budget σ) :
    Covered (budget.reservedTarget + body.length) (bodyInspected decoding body budget) := by
  unfold bodyInspected
  split
  · split
    · exact covered_ended (Nat.le_add_right ..)
    · exact covered_windowInspected body _ budget
  · exact covered_ended (Nat.le_add_right ..)

theorem covered_decompressed {before : Nat} {decoded : Bool} {target length : Nat}
    (enough : target + length ≤ before) :
    Covered before (decompressed decoded target length : Reading σ δ × Call) := by
  unfold decompressed
  split
  · show target + 0 + length ≤ before ∧ target + 0 ≤ before
    omega
  · exact covered_ended (by omega)

/-- What a stream holds. -/
def Stream.held (stream : Stream σ δ) : Nat :=
  stream.budget.reservedTarget + (stream.window + stream.compressed)

theorem covered_streamClosed (stream : Stream σ δ) (decoded : Bool) :
    Covered stream.held (streamClosed stream decoded) := by
  unfold streamClosed Stream.held
  dsimp only
  split
  · show stream.budget.reservedTarget + stream.compressed + stream.window ≤ _ ∧
      stream.budget.reservedTarget + stream.compressed ≤ _
    omega
  · exact covered_decompressed (by omega)

theorem covered_chunkCharged (stream : Stream σ δ) (chunk : Bytes) :
    Covered stream.held (chunkCharged decoding stream chunk) := by
  unfold chunkCharged
  cases charged : chargeChunk decoding stream.budget chunk with
  | tooComplex => exact ⟨Nat.le_refl _, Nat.le_refl _⟩
  | regressed => exact covered_streamClosed stream false
  | additional bytes after target =>
    obtain ⟨sum, same⟩ := chargeChunk_additional decoding charged
    dsimp only
    split
    · intro later
      show target + (stream.window + stream.compressed) ≤
        stream.budget.reservedTarget + (stream.window + stream.compressed)
      omega
    · show after.reservedTarget +
          (stream.window + stream.compressed + (target - after.reservedTarget)) ≤
          stream.budget.reservedTarget + (stream.window + stream.compressed) + bytes ∧
        after.reservedTarget + (stream.window + stream.compressed) ≤
          stream.budget.reservedTarget + (stream.window + stream.compressed)
      omega

theorem covered_chunkReceived (stream : Stream σ δ) :
    Covered stream.held (chunkReceived decoding stream) := by
  unfold chunkReceived
  dsimp only
  split
  · exact covered_streamClosed stream false
  · rename_i chunk reader _
    split
    · exact fun _ => Nat.le_refl _
    · split
      · exact ⟨Nat.le_refl _, Nat.le_refl _⟩
      · split
        · exact fun _ => Nat.le_refl _
        · exact covered_chunkCharged { stream with reader := reader } chunk

end Covered

/-- **The middleware is solvent.** -/
theorem reading_solvent : Solvent (readBody decoding) Reading.backing := by
  intro reading answer
  change Covered (reading.backing answer) (readNext decoding reading answer)
  cases reading with
  | start zstd budget =>
    cases zstd <;> cases answer <;> exact fun _ => Nat.le_refl _
  | identity total budget =>
    cases answer with
    | message frame => exact covered_identityReceived total budget frame
    | done => exact covered_ended (Nat.le_refl _)
    | raised => exact covered_ended (Nat.le_refl _)
  | identityFed total budget frame =>
    cases answer with
    | done => exact covered_identityCharged total budget frame
    | message frame => exact covered_ended (Nat.le_refl _)
    | raised => exact covered_ended (Nat.le_refl _)
  | identityReserved total more budget target =>
    cases answer with
    | done =>
      refine covered_identityPassed ?_
      show target ≤ budget.reservedTarget + (target - budget.reservedTarget)
      omega
    | message frame => exact covered_ended (Nat.le_refl _)
    | raised => exact covered_ended (Nat.le_refl _)
  | compressed body budget =>
    cases answer with
    | message frame => exact covered_compressedReceived body budget frame
    | done => exact covered_ended (Nat.le_add_right ..)
    | raised => exact covered_ended (Nat.le_add_right ..)
  | compressedReserved body frame budget =>
    cases answer with
    | done =>
      refine covered_compressedRead ?_
      rw [List.length_append]
      exact Nat.le_refl _
    | message frame => exact covered_ended (Nat.le_add_right ..)
    | raised => exact covered_ended (Nat.le_add_right ..)
  | inspected body budget =>
    cases answer with
    | done => exact covered_bodyInspected body budget
    | message frame => exact covered_ended (Nat.le_add_right ..)
    | raised => exact covered_ended (Nat.le_add_right ..)
  | windowReserved body window allowed budget =>
    cases answer with
    | done =>
      refine covered_streamOpened ?_
      rw [Nat.add_comm window]
      exact Nat.le_refl _
    | message frame => exact covered_ended (Nat.le_add_right ..)
    | raised => exact covered_ended (Nat.le_add_right ..)
  | chunkRead stream =>
    cases answer with
    | done => exact covered_chunkReceived stream
    | message frame => exact covered_streamClosed stream false
    | raised => exact covered_streamClosed stream false
  | chunkFed stream chunk =>
    cases answer with
    | done => exact covered_chunkCharged stream chunk
    | message frame => exact covered_streamClosed stream false
    | raised => exact covered_streamClosed stream false
  | chunkReserved stream chunk target =>
    cases answer with
    | done =>
      intro later
      show target + (stream.window + stream.compressed) ≤ stream.budget.reservedTarget +
        (stream.window + stream.compressed + (target - stream.budget.reservedTarget))
      omega
    | message frame => exact covered_streamClosed stream false
    | raised => exact covered_streamClosed stream false
  | chunkRefused stream => cases answer <;> exact covered_streamClosed stream false
  | collected stream => cases answer <;> exact covered_streamClosed stream _
  | windowReleased decoded target compressed =>
    cases answer with
    | done => exact covered_decompressed (Nat.le_refl _)
    | message frame => exact covered_ended (Nat.le_add_right ..)
    | raised => exact covered_ended (Nat.le_add_right ..)
  | compressedReleased target => cases answer <;> exact covered_ended (Nat.le_refl _)
  | refused target => cases answer <;> exact covered_ended (Nat.le_refl _)
  | ended target => cases answer <;> exact covered_ended (Nat.le_refl _)

theorem Reading.target_le_backing (reading : Reading σ δ) (answer : Answer) :
    reading.target ≤ reading.backing answer :=
  Nat.le_add_right ..

/-- A request whose body is read, with a budget that has not seen any of it. -/
def admitReading (headers : BodyHeaders) (buffered incoming : List Frame) (zstd : Bool)
    (estimator : Option σ) : World (Reading σ δ) :=
  admitRequest headers buffered incoming (.start zstd ⟨estimator, 0, 0⟩)

theorem admitReading_backed (headers : BodyHeaders) (buffered incoming : List Frame) (zstd : Bool)
    (estimator : Option σ) :
    let world : World (Reading σ δ) := admitReading headers buffered incoming zstd estimator
    Backed (Reading.backing world.caller) world.account world.phase := by
  simp only [admitReading, admitRequest, declareBody]
  cases validDeclaredContentLength headers with
  | none => exact Nat.le_refl 0
  | some declared =>
    dsimp only
    split
    · exact Nat.le_refl 0
    · exact fun _ => Nat.le_refl 0

/-- **Every body is charged**: at every step of a request whose messages are not longer than its declared
length, its lease is charged what was requested and not released, the credit that is not spent, and the
credit of calls that have not returned or have raised; no credit is lost without an exception; and the
lease covers the target of the budget. -/
theorem lease_covers_target (headers : BodyHeaders) (buffered incoming : List Frame)
    (fits : ∀ declared, validDeclaredContentLength headers = some declared →
      ((buffered ++ incoming).map (·.body.length)).sum ≤ declared)
    (zstd : Bool) (estimator : Option σ) (events : List Event) :
    let world := run (readBody decoding) (admitReading headers buffered incoming zstd estimator) events
    world.account.reserved + world.account.released =
        world.account.requested + world.account.unspent + world.account.wireCredit +
          world.phase.inFlight + world.account.lost ∧
      ((∀ event ∈ events, event = .resume) → world.account.lost = 0) ∧
      world.caller.target ≤ world.account.reserved := by
  intro world
  have bufferedFits : ∀ declared, validDeclaredContentLength headers = some declared →
      (buffered.map (·.body.length)).sum ≤ declared := by
    intro declared isDeclared
    have both := fits declared isDeclared
    rw [List.map_append, List.sum_append] at both
    omega
  have settled := admit_settled bufferedFits incoming
    (Reading.start zstd ⟨estimator, 0, 0⟩ : Reading σ δ)
  have backed := admitReading_backed headers buffered incoming zstd estimator (δ := δ)
  have settledRun : Settled (world.account, world.phase) := run_settled settled events
  have balanced := settledRun.balanced
  have held := (run_backed (reading_solvent decoding) backed events).held
    (world.caller.target_le_backing)
  have unlost : (admitReading headers buffered incoming zstd estimator :
      World (Reading σ δ)).account.lost = 0 := by
    simp only [admitReading, admitRequest, declareBody]
    cases validDeclaredContentLength headers with
    | none => rfl
    | some declared =>
      dsimp only
      split <;> rfl
  refine ⟨balanced, run_lost (reading_solvent decoding) settled backed unlost, ?_⟩
  simp only [Account.Balanced] at balanced
  change world.account.released + world.caller.target ≤ world.account.requested at held
  change world.account.reserved + world.account.released = _ at balanced
  change world.account.reserved + world.account.released =
    world.account.requested + world.account.unspent + world.account.wireCredit +
      world.phase.inFlight + world.account.lost at balanced
  omega

end Read

/-! ### A JSON body -/

/-- An estimator that charges five bytes for each byte, and no zstd. -/
def fiveFold : Decoding Nat Unit where
  identityLimit := none
  compressedLimit := none
  decompressedLimit := none
  feed seen chunk := some (5 * (seen + chunk.length), seen + chunk.length)
  ensureCompleteZstdFrames _ := none
  frameContentSize _ := none
  streamReader _ _ := ()
  read _ _ := none

/-- Headers with a Content-Length of two. -/
def declaresTwo : BodyHeaders := ⟨[Utf8.lit "2"], true, true⟩

/-- A body of two bytes, in one message. -/
def twoBytes : Frame := ⟨Utf8.lit "[]", false⟩

/-- A body of two bytes that is read to its end: each wait is resumed. -/
theorem lease_covers_declared :
    let world := run (readBody fiveFold) (admitReading declaresTwo [] [twoBytes] false (some 0))
      (List.replicate 8 .resume)
    (world.account.reserved + world.account.released =
        world.account.requested + world.account.unspent + world.account.wireCredit +
          world.phase.inFlight + world.account.lost ∧
      ((∀ event ∈ List.replicate 8 Event.resume, event = .resume) → world.account.lost = 0) ∧
      world.caller.target ≤ world.account.reserved) ∧
        world.phase = .finished ∧ world.caller.target = 10 :=
  ⟨lease_covers_target fiveFold declaresTwo [] [twoBytes]
    (by
      intro declared isDeclared
      have two : validDeclaredContentLength declaresTwo = some 2 := by decide
      rw [two] at isDeclared
      cases isDeclared
      decide) false (some 0) (List.replicate 8 .resume), rfl, rfl⟩

/-- **A request for memory that is refused** has spent the credit of its chunk: the lease is charged two
bytes more than was requested and than there is credit. -/
theorem refused_request_spends_credit :
    let world := run (readBody fiveFold)
      (admitReading ⟨[], true, true⟩ [] [twoBytes] false (some 0))
      [.resume, .resume, .resume, .resume, .resume, .resume, .raise]
    world.account.lost = 2 ∧
      world.account.reserved + world.account.released ≠
        world.account.requested + world.account.unspent + world.account.wireCredit := by
  decide

end UniApi.Middleware
