/-
**`IncrementalSSEParser`: the calls of the streaming SSE parser.**

A parser carries between calls the undecoded tail of a UTF-8 sequence, the event collected so far
(line endings already turned into LF), whether the last line ending was a CR, and whether the stream
is at its start. Each call runs on the parser, the retained-byte budget and the frames alive
(`SseCall`); an exception keeps what the call did before it.

`_extract_events` reserves a whole decoded chunk at once (`reservedCredit`) and hands it on piece by
piece: to the pending event, to the frames, and what is left over (the separators) back to the
budget.
-/

import UniApi.Lib.LineEndings
import UniApi.Streaming.RetainedOwners

namespace UniApi.Streaming

open UniApi.Lib

/-- `_INTERNAL_FEED_CHUNK_UNITS`. -/
def internalFeedChunkUnits : Nat := 256 * 1024

/-- `"\n"` as a byte of the event buffer. -/
abbrev lfByte : UInt8 := 10

/-- `"\r"` as a byte of the event buffer. -/
abbrev crByte : UInt8 := 13

/-- `"\n"` in a string. -/
abbrev lfPoint : CodePoint := 10

/-- `"\r"` in a string. -/
abbrev crPoint : CodePoint := 13

/-- `"\ufeff"`. -/
abbrev bomPoint : CodePoint := 0xFEFF

/-- A chunk: `str`, or `bytes` and `bytearray`. -/
inductive Chunk where
  | text (text : PyStr)
  | bytes (bytes : Bytes)

/-- Consecutive blocks of `size` elements. -/
def blocks {α : Type} (size : Nat) : Nat → List α → List (List α)
  | 0, _ => []
  | _, [] => []
  | fuel + 1, list => list.take size :: blocks size fuel (list.drop size)

/-- `_feed_pieces`. -/
def feedPieces : Chunk → List Chunk
  | .text text => (blocks internalFeedChunkUnits text.length text).map .text
  | .bytes bytes => (blocks internalFeedChunkUnits bytes.length bytes).map .bytes

/-- `_bounded_utf8_size`: the bytes measured so far, until the limit is known to be exceeded. -/
def boundedUtf8Size (limitBytes : Nat) (observed : Nat) : List PyStr → Option Nat
  | [] => some observed
  | piece :: rest => do
    let encoded ← Utf8.encodePoints piece
    let observed := observed + encoded.length
    if observed > limitBytes then return observed else boundedUtf8Size limitBytes observed rest

/-- The limits a parser is constructed with. A byte limit of zero is no limit. -/
structure SseLimits where
  maxPendingBytes : Nat
  maxEventBytes : Nat
  maxEventsPerFeed : Nat
  maxFeedBytes : Nat
  /-- `__init__` rejects every other value. -/
  maxEventsPerFeed_pos : 0 < maxEventsPerFeed

structure SseParser where
  limits : SseLimits
  /-- What the incremental decoder holds. -/
  undecoded : Bytes
  event : Bytes
  pendingBudgetBytes : Int
  trailingCr : Bool
  finished : Bool
  failed : Bool
  atStreamStart : Bool

namespace SseParser

/-- `__init__`. -/
def new (limits : SseLimits) : SseParser :=
  { limits, undecoded := [], event := [], pendingBudgetBytes := 0, trailingCr := false
    finished := false, failed := false, atStreamStart := true }

/-- `_pending_size_bytes`. -/
def pendingSizeBytes (parser : SseParser) : Nat := parser.event.length + parser.undecoded.length

/-- `pending_data`: the partial event with its last line ending as it came, and the undecoded
bytes. -/
def pendingData (parser : SseParser) : Bytes :=
  let pending :=
    if parser.trailingCr ∧ parser.event.getLast? = some lfByte then parser.event.dropLast ++ [crByte]
    else parser.event
  pending ++ parser.undecoded

/-- `_strip_initial_bom`. -/
def stripInitialBom (text : PyStr) (final : Bool) (parser : SseParser) : PyStr × SseParser :=
  if !parser.atStreamStart then (text, parser)
  else if text = [] ∧ !final then (text, parser)
  else (removeMark bomPoint text, { parser with atStreamStart := false })

/-- `_normalize_newlines`. -/
def normalizeNewlines (text : PyStr) (final : Bool) (parser : SseParser) : PyStr × SseParser :=
  let swallow := parser.trailingCr && (!text.isEmpty || final)
  let trailingCr := if swallow then false else parser.trailingCr
  let text := if swallow ∧ text.head? = some lfPoint then text.tail else text
  let trailingCr := if !final ∧ text.getLast? = some crPoint then true else trailingCr
  (normalizeLines crPoint lfPoint text, { parser with trailingCr })

end SseParser

/-- What a call of an SSE parser works on. -/
abbrev SseCall := ParserCall SseParser

namespace SseCall

open ParserCall

/-- A call of the parser that may raise. -/
abbrev Run := Raise StreamError SseCall

/-- `self._failed = True; raise error`. -/
def failWith {α : Type} (error : StreamError) : Run α := do
  setParser fun parser => { parser with failed := true }
  Raise.throw error

/-- `_release_pending_budget`. -/
def releasePendingBudget : Run Unit := do
  let state ← Raise.get
  let retained := state.parser.pendingBudgetBytes
  setParser fun parser => { parser with pendingBudgetBytes := 0 }
  if retained ≠ 0 then onBudget (RetainedBudget.release retained) else return ()

/-- `_clear_pending_event`. -/
def clearPendingEvent : Run Unit := do
  setParser fun parser => { parser with event := [] }
  releasePendingBudget

/-- `_release_pending_bytes`. -/
def releasePendingBytes (size : Int) : Run Unit := do
  let state ← Raise.get
  if size > state.parser.pendingBudgetBytes then Raise.throw .pendingUnderflow
  else
    setParser fun parser => { parser with pendingBudgetBytes := parser.pendingBudgetBytes - size }
    onBudget (RetainedBudget.release size)

/-- `_validate_complete_event`. -/
def validateCompleteEvent : Run Unit := do
  let state ← Raise.get
  let limit := state.parser.limits.maxEventBytes
  let observed := state.parser.event.length
  if limit ≠ 0 ∧ observed > limit then failWith (.bufferOverflow "event" limit observed)
  else return ()

/-- `_validate_pending_size`. -/
def validatePendingSize : Run Unit := do
  let state ← Raise.get
  let limits := state.parser.limits
  let pending := state.parser.pendingSizeBytes
  if limits.maxPendingBytes ≠ 0 ∧ pending > limits.maxPendingBytes then
    failWith (.bufferOverflow "pending buffer" limits.maxPendingBytes pending)
  else if limits.maxEventBytes ≠ 0 ∧ pending > limits.maxEventBytes then
    failWith (.bufferOverflow "event" limits.maxEventBytes pending)
  else return ()

/-- `_validate_feed_size`. -/
def validateFeedSize (chunk : Chunk) : Run Unit := do
  let state ← Raise.get
  let limit := state.parser.limits.maxFeedBytes
  if limit = 0 then return ()
  else
    let observed :=
      match chunk with
      | .text text => boundedUtf8Size limit 0 (blocks internalFeedChunkUnits text.length text)
      | .bytes bytes => some bytes.length
    match observed with
    | none => failWith (.protocol "SSE text contains an invalid Unicode scalar")
    | some observed =>
      if observed > limit then failWith (.bufferOverflow "input chunk" limit observed) else return ()

/-- `_decode_chunk`. -/
def decodeChunk (chunk : Chunk) : Run PyStr := do
  let state ← Raise.get
  match chunk with
  | .text text =>
    if state.parser.undecoded ≠ [] then
      failWith (.protocol "cannot feed text while a UTF-8 byte sequence is incomplete")
    else return text
  | .bytes bytes =>
    match Utf8.decode state.parser.undecoded bytes with
    | none => failWith (.protocol "SSE stream contains invalid UTF-8")
    | some (text, undecoded) =>
      setParser fun parser => { parser with undecoded }
      return text

end SseCall

/-! ### `_extract_events` -/

/-- The locals of `_extract_events` beside what the call works on. -/
structure Extracting where
  call : SseCall
  reservedCredit : Int
  events : List PyStr

namespace Extracting

abbrev Run := Raise StreamError Extracting

/-- A call of the parser inside `_extract_events`. -/
def inCall {α : Type} (call : SseCall.Run α) : Run α :=
  Raise.zoom Extracting.call (fun call state => { state with call }) call

/-- Moves `segment` from the credit to the pending event. -/
def takeCredit (segment : Bytes) (state : Extracting) : Extracting :=
  let parser := state.call.parser
  { state with
    reservedCredit := state.reservedCredit - segment.length
    call := { state.call with parser := { parser with
      pendingBudgetBytes := parser.pendingBudgetBytes + segment.length
      event := parser.event ++ segment } } }

/-- The bytes up to the next newline go to the pending event. -/
def appendSegment (segment : Bytes) : Run Unit :=
  if segment = [] then return ()
  else do
    Raise.modify (takeCredit segment)
    let state ← Raise.get
    let limit := state.call.parser.limits.maxEventBytes
    let observed := state.call.parser.event.length
    if limit ≠ 0 ∧ observed > limit then
      inCall (SseCall.failWith (.bufferOverflow "event" limit observed))
    else return ()

/-- The frame of a complete event: it takes over what the parser retains for it. -/
def emitFrame (text : PyStr) (state : Extracting) : Extracting :=
  let parser := state.call.parser
  { state with
    events := state.events ++ [text]
    call := { state.call with
      parser := { parser with pendingBudgetBytes := 0, event := [] }
      frames := state.call.frames ++ [RetainedTextFrame.new text parser.pendingBudgetBytes] } }

/-- The second LF of a separator. Neither of the two belongs to the frame: the first is given back
here, the second stays in the credit. -/
def closeEvent : Run Unit := do
  inCall (ParserCall.setParser fun parser => { parser with event := parser.event.dropLast })
  inCall (SseCall.releasePendingBytes 1)
  inCall SseCall.validateCompleteEvent
  let state ← Raise.get
  let limit := state.call.parser.limits.maxEventsPerFeed
  if state.events.length ≥ limit then
    inCall (SseCall.failWith (.outputLimit "events" limit (limit + 1)))
  else
    match Utf8.decodeAll state.call.parser.event with
    | none =>
      inCall SseCall.clearPendingEvent
      Raise.throw .unicodeDecode
    | some text => Raise.modify (emitFrame text)

/-- A newline: it ends an event whose last byte is a newline, and belongs to the event otherwise. -/
def onNewline : Run Unit := do
  let state ← Raise.get
  if state.call.parser.event.getLast? = some lfByte then closeEvent
  else Raise.modify (takeCredit [lfByte])

/-- The loop over the newlines of a decoded chunk. `segment` holds the bytes from the cursor on. -/
def loop (segment : Bytes) : Bytes → Run Unit
  | [] => appendSegment segment
  | byte :: rest =>
    if byte = lfByte then do
      appendSegment segment
      onNewline
      loop [] rest
    else loop (segment ++ [byte]) rest

end Extracting

namespace SseCall

open ParserCall

/-- `_extract_events` over the encoded chunk: whatever the loop does, the credit left over goes back
to the budget. -/
def extractBytes (normalizedBytes : Bytes) : Run (List PyStr) := fun state =>
  let (result, after) := Extracting.loop [] normalizedBytes
    { call := state, reservedCredit := normalizedBytes.length, events := [] }
  let (released, state) := onBudget (RetainedBudget.release after.reservedCredit) after.call
  match released, result with
  | .error error, _ => (.error error, state)
  | .ok _, .error error => (.error error, state)
  | .ok _, .ok _ => (.ok after.events, state)

/-- `_extract_events`. -/
def extractEvents (normalizedChunk : PyStr) : Run (List PyStr) :=
  if normalizedChunk = [] then return []
  else
    match Utf8.encodePoints normalizedChunk with
    | none => failWith (.protocol "SSE text contains an invalid Unicode scalar")
    | some normalizedBytes => do
      onBudget (RetainedBudget.reserve normalizedBytes.length)
      extractBytes normalizedBytes

/-! ### The calls -/

/-- `self._failed = True; self._clear_pending_event(); raise error`: the handler of `feed` and
`finish`. -/
def abandon {α : Type} (error : StreamError) : Run α := do
  setParser fun parser => { parser with failed := true }
  clearPendingEvent
  Raise.throw error

/-- One internal piece of a chunk. -/
def feedPiece (piece : Chunk) (events : List PyStr) : Run (List PyStr) := do
  let decoded ← decodeChunk piece
  let stripped ← Raise.update fun state =>
    let (text, parser) := state.parser.stripInitialBom decoded false
    (text, { state with parser })
  let normalized ← Raise.update fun state =>
    let (text, parser) := state.parser.normalizeNewlines stripped false
    (text, { state with parser })
  let extracted ← extractEvents normalized
  let state ← Raise.get
  let limit := state.parser.limits.maxEventsPerFeed
  if events.length + extracted.length > limit then
    failWith (.outputLimit "events" limit (events.length + extracted.length))
  else
    validatePendingSize
    return events ++ extracted

/-- The loop of `feed`. -/
def feedLoop : List Chunk → List PyStr → Run (List PyStr)
  | [], events => return events
  | piece :: rest, events => do
    let events ← feedPiece piece events
    feedLoop rest events

/-- `feed`. -/
def feed (chunk : Chunk) : Run (List PyStr) := do
  let state ← Raise.get
  if state.parser.finished then Raise.throw (.protocol "cannot feed an SSE parser after finish()")
  else if state.parser.failed then
    Raise.throw (.protocol "cannot feed an SSE parser after a parse failure")
  else
    Raise.tryExcept (do validateFeedSize chunk; feedLoop (feedPieces chunk) []) abandon

/-- The body of `finish`. -/
def finishBody : Run (List PyStr) := do
  let state ← Raise.get
  -- `self._decoder.decode(b"", final=True)`
  if state.parser.undecoded ≠ [] then Raise.throw .unicodeDecode
  else
    let stripped ← Raise.update fun state =>
      let (text, parser) := state.parser.stripInitialBom [] true
      (text, { state with parser })
    let normalized ← Raise.update fun state =>
      let (text, parser) := state.parser.normalizeNewlines stripped true
      (text, { state with parser })
    let events ← extractEvents normalized
    validatePendingSize
    let state ← Raise.get
    if state.parser.event ≠ [] then failWith (.incompleteEvent state.parser.pendingSizeBytes)
    else return events

/-- `finish`. -/
def finish : Run (List PyStr) := do
  let state ← Raise.get
  if state.parser.failed then
    Raise.throw (.protocol "cannot finish an SSE parser after a parse failure")
  else if state.parser.finished then return []
  else
    setParser fun parser => { parser with finished := true }
    Raise.tryExcept finishBody fun error =>
      if error = .unicodeDecode then
        abandon (.protocol "SSE stream ended with an incomplete UTF-8 sequence")
      else abandon error

/-- `discard`. -/
def discard : Run Unit := do
  setParser fun parser => { parser with failed := true, finished := true }
  clearPendingEvent

end SseCall

/-! ### A stream through a parser -/

/-- What a consumer that feeds some chunks and then finishes gets: the frames returned, and how the
stream ended. -/
structure StreamResult where
  frames : List PyStr
  outcome : Except StreamError Unit
  deriving DecidableEq

/-- Feeds the chunks in order, stopping at an exception, and then finishes. -/
def drive : List Chunk → SseCall → StreamResult
  | [], state =>
    match SseCall.finish state with
    | (.ok frames, _) => ⟨frames, .ok ()⟩
    | (.error error, _) => ⟨[], .error error⟩
  | chunk :: rest, state =>
    match SseCall.feed chunk state with
    | (.error error, _) => ⟨[], .error error⟩
    | (.ok frames, after) =>
      let later := drive rest after
      ⟨frames ++ later.frames, later.outcome⟩

end UniApi.Streaming
