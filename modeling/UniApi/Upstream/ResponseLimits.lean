/-
**`read_limited_response_body`: an upstream body up to a limit, charged before it is kept.**

The raw chunks are decoded in pieces, with an output bound that shrinks as the body fills. Every
await may raise, by an error or by cancellation, and the zlib object is a parameter.
-/

import UniApi.Admission.ResponseReservation
import UniApi.Lib.Inflate
import UniApi.Lib.PyText
import UniApi.Lib.Raise
import UniApi.Streaming.SseSplit

namespace UniApi.Upstream

open UniApi.Lib
open UniApi.Streaming (blocks blocks_flatten)

/-- What a bounded read raises, or an await of it. -/
inductive UpstreamFault where
  | valueError (message : String)
  | typeError (message : String)
  | zlibError
  | decoding (message : String)
  | encodingUnsupported (encoding : PyText)
  | tooLarge (limit : ℕ)
  | jsonEncodingUnsupported
  | reservation (fault : Admission.ReservationFault)
  /-- An error of the transport or a cancellation. -/
  | interrupted
  deriving DecidableEq

/-- A call raises, or needs more steps than it was given. -/
inductive ReadFault where
  | raised (fault : UpstreamFault)
  | unfinished
  deriving DecidableEq

/-- The codings that are decoded. -/
inductive Coding where
  | gzip
  | deflate
  deriving DecidableEq

/-- The coding of an encoding, which may be none at all, unless the encoding is not supported. -/
def codingOf (encoding : PyText) : Option (Option Coding) :=
  if encoding = [] ∨ encoding = Utf8.points "identity" then some none
  else if encoding = Utf8.points "gzip" ∨ encoding = Utf8.points "x-gzip" then some (some .gzip)
  else if encoding = Utf8.points "deflate" then some (some .deflate)
  else none

/-- The response, as the reader sees it. -/
structure UpstreamResponse where
  /-- The content, with the extension `uni_api_body_already_bounded`. -/
  alreadyBounded : Option Bytes
  /-- The `content-encoding` header. -/
  contentEncoding : PyText
  isStreamConsumed : Bool
  /-- What `aiter_raw` yields. -/
  rawChunks : Option (List Bytes)
  /-- What `aiter_bytes` yields. -/
  byteChunks : Option (List Bytes)

structure LimitedResponseBody where
  body : Bytes
  truncated : Bool
  observedBytesAtLeast : ℕ
  deriving DecidableEq

/-- What is reserved, and what is retained. -/
inductive BodyEvent where
  | reserve (size : ℕ)
  | retain (size : ℕ)
  deriving DecidableEq

/-- What a read works on. -/
structure ReadState (σ τ : Type) where
  body : Bytes
  observed : ℕ
  rawObserved : ℕ
  truncated : Bool
  decompressor : σ
  closed : Bool
  /-- The awaits so far. -/
  awaits : ℕ
  events : List BodyEvent
  /-- What the reservation callback works on. -/
  outside : τ

/-- The arguments of a read, the zlib object of its coding, and what its awaits raise. -/
structure ReadSetting (σ τ : Type) where
  limit : ℕ
  reservationMultiplier : ℕ
  reserveBytes : Option (ℕ → Raise UpstreamFault τ Unit)
  zlib : Decompressor σ
  interrupts : ℕ → Option UpstreamFault

/-- `_DECODE_CHUNK_BYTES`. -/
abbrev decodeChunkBytes : ℕ := 64 * 1024

/-- `_ENCODED_OVERHEAD_ALLOWANCE_BYTES`. -/
abbrev encodedOverheadAllowanceBytes : ℕ := 64 * 1024

namespace ReadSetting

variable {σ τ : Type} (setting : ReadSetting σ τ)

/-- A read that may raise. -/
abbrev Run (_ : ReadSetting σ τ) (α : Type) := Raise ReadFault (ReadState σ τ) α

/-- `raise`. -/
def throw {α : Type} (fault : UpstreamFault) : setting.Run α := Raise.throw (.raised fault)

/-- An await. -/
def await : setting.Run Unit := do
  let state ← Raise.get
  Raise.modify fun state => { state with awaits := state.awaits + 1 }
  match setting.interrupts state.awaits with
  | some fault => setting.throw fault
  | none => return ()

/-- `close_response`. -/
def closeResponse : setting.Run Unit := do
  setting.await
  Raise.modify fun state => { state with closed := true }

/-- `await reserve_bytes(size)`. -/
def reserve (callback : ℕ → Raise UpstreamFault τ Unit) (size : ℕ) : setting.Run Unit :=
  fun state =>
  match callback size state.outside with
  | (.ok (), outside) => (.ok (), { state with outside, events := state.events ++ [.reserve size] })
  | (.error fault, outside) => (.error (.raised fault), { state with outside })

/-- `reserve_bytes` may be missing. -/
def charge (size : ℕ) : setting.Run Unit :=
  match setting.reserveBytes with
  | some callback => setting.reserve callback size
  | none => return ()

/-- The bytes that are retained are reserved first. -/
def keep (retained : Bytes) : setting.Run Unit :=
  if retained = [] then return ()
  else do
    setting.charge (retained.length * setting.reservationMultiplier)
    Raise.modify fun state => { state with
      body := state.body ++ retained
      events := state.events ++ [.retain retained.length] }

/-- `retain`. -/
def retain (decoded : Bytes) : setting.Run Bool := do
  Raise.modify fun state => { state with observed := state.observed + decoded.length }
  let state ← Raise.get
  let remaining := setting.limit - state.body.length
  setting.keep (decoded.take remaining)
  if decoded.length > remaining then
    Raise.modify fun state => { state with truncated := true }
    return false
  else return true

/-- `not decoded or await retain(decoded)`. -/
def retainAny (decoded : Bytes) : setting.Run Bool :=
  if decoded = [] then return true else setting.retain decoded

/-- `decompressor.decompress`, and `decompressor.flush`. -/
def onZlib (call : σ → Except Unit (Bytes × σ)) : setting.Run Bytes := do
  setting.await
  let state ← Raise.get
  match call state.decompressor with
  | .error () => setting.throw .zlibError
  | .ok (output, decompressor) =>
    Raise.modify fun state => { state with decompressor }
    return output

/-- `min(_DECODE_CHUNK_BYTES, max(1, limit - len(body) + 1))`. -/
def maxOutput (state : ReadState σ τ) : ℕ :=
  min decodeChunkBytes (max 1 (setting.limit - state.body.length + 1))

/-- `while pending and not truncated`. -/
def decodeLoop : ℕ → Bytes → setting.Run Unit
  | 0, _ => Raise.throw .unfinished
  | fuel + 1, pending => do
    let state ← Raise.get
    if pending = [] ∨ state.truncated then return ()
    else
      let decoded ← setting.onZlib (setting.zlib.decompress pending (setting.maxOutput state))
      let after ← Raise.get
      let rest := setting.zlib.unconsumedTail after.decompressor
      let goesOn ← setting.retainAny decoded
      if !goesOn then return ()
      else if rest ≠ [] ∧ decoded = [] ∧ rest.length ≥ pending.length then
        setting.throw (.decoding "upstream compressed response decoder made no progress")
      else decodeLoop fuel rest

/-- The loop over the slices of a compressed chunk. -/
def sliceLoop : List Bytes → setting.Run Unit
  | [] => return ()
  | slice :: rest => do
    setting.decodeLoop (setting.limit + slice.length + 1) slice
    let state ← Raise.get
    if state.truncated then return () else sliceLoop rest

/-- The loop over the slices of an identity chunk. -/
def copyLoop : List Bytes → setting.Run Unit
  | [] => return ()
  | slice :: rest => do
    let goesOn ← setting.retain slice
    if goesOn then copyLoop rest else return ()

/-- The `flush` loop. -/
def flushLoop : ℕ → setting.Run Unit
  | 0 => Raise.throw .unfinished
  | fuel + 1 => do
    let state ← Raise.get
    let tail ← setting.onZlib (setting.zlib.flush (setting.maxOutput state))
    if tail = [] then return ()
    else
      let goesOn ← setting.retain tail
      if goesOn then flushLoop fuel else setting.closeResponse

/-- The slices of one chunk. -/
def passChunk (compressed : Bool) (raw : Bytes) : setting.Run Unit :=
  let slices := blocks decodeChunkBytes raw.length raw
  if compressed then do
    setting.sliceLoop slices
    let state ← Raise.get
    if setting.zlib.unusedData state.decompressor ≠ [] then
      setting.throw (.decoding "upstream compressed response has trailing data")
    else return ()
  else setting.copyLoop slices

/-- One chunk: whether the loop goes on. -/
def readChunk (compressed : Bool) (raw : Bytes) : setting.Run Bool := do
  Raise.modify fun state => { state with rawObserved := state.rawObserved + raw.length }
  let state ← Raise.get
  if compressed ∧ state.rawObserved > setting.limit + encodedOverheadAllowanceBytes then
    Raise.modify fun state => { state with truncated := true }
    setting.closeResponse
    return false
  else
    setting.passChunk compressed raw
    let after ← Raise.get
    if after.truncated then
      setting.closeResponse
      return false
    else return true

/-- The loop over the chunks, with its `else` branch. -/
def chunkLoop (compressed : Bool) : List Bytes → setting.Run Unit
  | [] => do
    setting.await
    if compressed then
      let state ← Raise.get
      if !setting.zlib.eof state.decompressor then
        setting.throw (.decoding "upstream compressed response ended before frame completion")
      else setting.flushLoop (setting.limit + 2)
    else return ()
  | raw :: rest => do
    setting.await
    let goesOn ← setting.readChunk compressed raw
    if goesOn then chunkLoop compressed rest else return ()

/-- The handlers: the response is closed, and a `zlib.error` becomes a decoding error. -/
def closeAndRaise {α : Type} (fault : ReadFault) : setting.Run α := do
  setting.closeResponse
  match fault with
  | .raised .zlibError => setting.throw (.decoding "invalid upstream compressed response")
  | fault => Raise.throw fault

/-- The reader behind its guards. -/
def readBody (compressed : Bool) (chunks : List Bytes) : setting.Run LimitedResponseBody := do
  Raise.tryExcept (setting.chunkLoop compressed chunks) setting.closeAndRaise
  let state ← Raise.get
  -- the encoded input alone may have been too long
  let observed :=
    if state.truncated ∧ state.observed ≤ setting.limit then setting.limit + 1 else state.observed
  return { body := state.body, truncated := state.truncated, observedBytesAtLeast := observed }

/-- A coding that is not supported here. -/
def refuseEncoding {α : Type} (encoding : PyText) : setting.Run α := do
  setting.closeResponse
  setting.throw (.encodingUnsupported encoding)

/-- `read_limited_response_body`. Without a coding the zlib object is never called. -/
def readLimitedResponseBody (start : Coding → σ) (response : UpstreamResponse) :
    setting.Run LimitedResponseBody :=
  if setting.limit = 0 then setting.throw (.valueError "max_bytes must be positive")
  else if setting.reservationMultiplier = 0 then
    setting.throw (.valueError "reservation_multiplier must be positive")
  else
    match response.alreadyBounded with
    | some content => return {
        body := content.take setting.limit
        truncated := content.length > setting.limit
        observedBytesAtLeast := content.length }
    | none =>
      let encoding := (PyText.strip response.contentEncoding).map PyText.lowerAscii
      match codingOf encoding with
      | none => setting.refuseEncoding encoding
      | some coding =>
        if response.isStreamConsumed ∧ coding.isSome then setting.refuseEncoding encoding
        else do
          Raise.modify fun state =>
            { state with decompressor := (coding.map start).getD state.decompressor }
          match if response.isStreamConsumed then response.byteChunks else response.rawChunks with
          | some chunks => setting.readBody coding.isSome chunks
          | none =>
            if coding.isSome then setting.refuseEncoding encoding
            else
              match response.byteChunks with
              | some chunks => setting.readBody false chunks
              | none =>
                setting.throw
                  (.typeError "streaming response must provide aiter_raw() or aiter_bytes()")

end ReadSetting

/-- What a read starts from. -/
def ReadState.fresh {σ τ : Type} (decompressor : σ) (outside : τ) : ReadState σ τ where
  body := []
  observed := 0
  rawObserved := 0
  truncated := false
  decompressor := decompressor
  closed := false
  awaits := 0
  events := []
  outside := outside

end UniApi.Upstream
