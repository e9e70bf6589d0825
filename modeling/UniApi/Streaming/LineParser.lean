/-
**`IncrementalLineParser`: strict UTF-8 line framing with a retained-byte limit.**

Unlike the SSE parser it reserves the bytes of each segment as it appends them to the line, holds a
final CR back until the next call, and returns a last line without a newline.

`LineBooks` is the balance between calls, as for the SSE parser. `lineFeed_spec`, `lineFinish_spec`
and `lineDiscard_spec` say that every call keeps it, whatever the call raises, and that no call
raises an underflow.
-/

import UniApi.Streaming.SseCalls

namespace UniApi.Streaming

open UniApi.Lib RetainedBudget

/-- The limits a line parser is constructed with. `__init__` rejects every other value. -/
structure LineLimits where
  maxLineBytes : Nat
  maxLinesPerFeed : Nat
  maxFeedBytes : Nat
  maxLineBytes_pos : 0 < maxLineBytes
  maxLinesPerFeed_pos : 0 < maxLinesPerFeed
  maxFeedBytes_pos : 0 < maxFeedBytes

structure LineParser where
  limits : LineLimits
  /-- What the incremental decoder holds. -/
  undecoded : Bytes
  line : Bytes
  pendingBudgetBytes : Int
  pendingCr : Bool
  finished : Bool
  failed : Bool
  atStreamStart : Bool

namespace LineParser

/-- `__init__`. -/
def new (limits : LineLimits) : LineParser :=
  { limits, undecoded := [], line := [], pendingBudgetBytes := 0, pendingCr := false
    finished := false, failed := false, atStreamStart := true }

/-- `pending_bytes`. -/
def pendingBytes (parser : LineParser) : Nat :=
  parser.line.length + (if parser.pendingCr then 1 else 0) + parser.undecoded.length

/-- `_strip_initial_bom`. -/
def stripInitialBom (text : PyStr) (final : Bool) (parser : LineParser) : PyStr × LineParser :=
  if !parser.atStreamStart then (text, parser)
  else if text = [] ∧ !final then (text, parser)
  else (removeMark bomPoint text, { parser with atStreamStart := false })

/-- `_normalize_newlines`: a final CR waits for the next call. -/
def normalizeNewlines (text : PyStr) (final : Bool) (parser : LineParser) : PyStr × LineParser :=
  let waiting := parser.pendingCr && (!text.isEmpty || final)
  let newline : PyStr := if waiting then [lfPoint] else []
  let pendingCr := if waiting then false else parser.pendingCr
  let text := if waiting ∧ text.head? = some lfPoint then text.tail else text
  let held : Bool := !final && text.getLast? = some crPoint
  let text := if held then text.dropLast else text
  (newline ++ normalizeLines crPoint lfPoint text, { parser with pendingCr := held || pendingCr })

end LineParser

/-- What a call of a line parser works on. -/
abbrev LineCall := ParserCall LineParser

namespace LineCall

open ParserCall

/-- A call of the parser that may raise. -/
abbrev Run := Raise StreamError LineCall

/-- `self._failed = True; raise error`. -/
def failWith {α : Type} (error : StreamError) : Run α := do
  setParser fun parser => { parser with failed := true }
  Raise.throw error

/-- `_release_line_budget`. -/
def releaseLineBudget : Run Unit := do
  let state ← Raise.get
  let retained := state.parser.pendingBudgetBytes
  setParser fun parser => { parser with pendingBudgetBytes := 0 }
  if retained ≠ 0 then onBudget (RetainedBudget.release retained) else return ()

/-- `_clear_pending_line`. -/
def clearPendingLine : Run Unit := do
  setParser fun parser => { parser with line := [] }
  releaseLineBudget

/-- `_validate_pending`. -/
def validatePending : Run Unit := do
  let state ← Raise.get
  let observed := state.parser.pendingBytes
  let limit := state.parser.limits.maxLineBytes
  if observed > limit then failWith (.bufferOverflow "line" limit observed) else return ()

/-- `_validate_complete_line`. -/
def validateCompleteLine : Run Unit := do
  let state ← Raise.get
  let observed := state.parser.line.length
  let limit := state.parser.limits.maxLineBytes
  if observed > limit then failWith (.bufferOverflow "line" limit observed) else return ()

/-- `SSEProtocolError` for a lone surrogate. -/
def invalidLineScalar : StreamError := .protocol "line text contains an invalid Unicode scalar"

/-- `_append_line_text`: the bytes are charged to the budget, then to the line. -/
def appendLineText (text : PyStr) : Run Unit :=
  if text = [] then return ()
  else
    match Utf8.encodePoints text with
    | none => failWith invalidLineScalar
    | some encoded => do
      onBudget (RetainedBudget.reserve encoded.length)
      setParser fun parser => { parser with
        pendingBudgetBytes := parser.pendingBudgetBytes + encoded.length
        line := parser.line ++ encoded }
      validateCompleteLine

/-- `_transfer_line_frame`: the frame takes over what the parser retains for the line. -/
def transferLineFrame : Run PyStr := do
  let state ← Raise.get
  match Utf8.decodeAll state.parser.line with
  | none =>
    clearPendingLine
    Raise.throw .unicodeDecode
  | some text =>
    Raise.modify fun state => { state with
      parser := { state.parser with pendingBudgetBytes := 0, line := [] }
      frames := state.frames ++ [RetainedTextFrame.new text state.parser.pendingBudgetBytes] }
    return text

/-- `_extract_lines`: `segment` holds the text from the cursor on. -/
def extractLines (segment : PyStr) (lines : List PyStr) : PyStr → Run (List PyStr)
  | [] => do
    appendLineText segment
    return lines
  | point :: rest =>
    if point = lfPoint then do
      appendLineText segment
      validateCompleteLine
      let state ← Raise.get
      let limit := state.parser.limits.maxLinesPerFeed
      if lines.length ≥ limit then failWith (.outputLimit "lines" limit (limit + 1))
      else
        let line ← transferLineFrame
        extractLines [] (lines ++ [line]) rest
    else extractLines (segment ++ [point]) lines rest

/-- `_decode`. -/
def decode (chunk : Chunk) : Run PyStr := do
  let state ← Raise.get
  match chunk with
  | .text text =>
    if state.parser.undecoded ≠ [] then
      failWith (.protocol "cannot feed text while a UTF-8 byte sequence is incomplete")
    else return text
  | .bytes bytes =>
    match Utf8.decode state.parser.undecoded bytes with
    | none => failWith (.protocol "line stream contains invalid UTF-8")
    | some (text, undecoded) =>
      setParser fun parser => { parser with undecoded }
      return text

/-- `self._failed = True; self._clear_pending_line(); raise error`: the handler of `feed` and
`finish`. -/
def abandon {α : Type} (error : StreamError) : Run α := do
  setParser fun parser => { parser with failed := true }
  clearPendingLine
  Raise.throw error

/-- The two stages on text. -/
def normalizedText (decoded : PyStr) (final : Bool) : Run PyStr :=
  Raise.update fun state =>
    let (text, parser) := state.parser.stripInitialBom decoded final
    let (text, parser) := parser.normalizeNewlines text final
    (text, { state with parser })

/-- The loop of `feed` over the internal pieces. -/
def feedLoop : List Chunk → List PyStr → Run (List PyStr)
  | [], lines => return lines
  | piece :: rest, lines => do
    let decoded ← decode piece
    let normalized ← normalizedText decoded false
    let extracted ← extractLines [] [] normalized
    let state ← Raise.get
    let limit := state.parser.limits.maxLinesPerFeed
    if lines.length + extracted.length > limit then
      failWith (.outputLimit "lines" limit (lines.length + extracted.length))
    else
      validatePending
      feedLoop rest (lines ++ extracted)

/-- The size check of `feed`. -/
def validateFeedSize (chunk : Chunk) : Run Unit := do
  let state ← Raise.get
  let limit := state.parser.limits.maxFeedBytes
  let observed :=
    match chunk with
    | .text text => boundedUtf8Size limit 0 (blocks internalFeedChunkUnits text.length text)
    | .bytes bytes => some bytes.length
  match observed with
  | none => Raise.throw invalidLineScalar
  | some observed =>
    if observed > limit then failWith (.bufferOverflow "line input chunk" limit observed)
    else return ()

/-- `feed`. -/
def feed (chunk : Chunk) : Run (List PyStr) := do
  let state ← Raise.get
  if state.parser.finished then Raise.throw (.protocol "cannot feed a line parser after finish()")
  else if state.parser.failed then
    Raise.throw (.protocol "cannot feed a line parser after a parse failure")
  else
    Raise.tryExcept (do validateFeedSize chunk; feedLoop (feedPieces chunk) []) abandon

/-- The body of `finish`: a line without a newline is a line. -/
def finishBody : Run (List PyStr) := do
  let state ← Raise.get
  if state.parser.undecoded ≠ [] then failWith (.protocol "line stream contains invalid UTF-8")
  else
    let normalized ← normalizedText [] true
    let lines ← extractLines [] [] normalized
    let state ← Raise.get
    if state.parser.line = [] then return lines
    else
      validateCompleteLine
      let line ← transferLineFrame
      return lines ++ [line]

/-- `finish`. -/
def finish : Run (List PyStr) := do
  let state ← Raise.get
  if state.parser.failed then
    Raise.throw (.protocol "cannot finish a line parser after a parse failure")
  else if state.parser.finished then return []
  else
    setParser fun parser => { parser with finished := true }
    Raise.tryExcept finishBody abandon

/-- `discard`. -/
def discard : Run Unit := do
  setParser fun parser => { parser with failed := true, finished := true }
  clearPendingLine

end LineCall

/-! ### The balance -/

/-- **The books balance**: the parser has charged the bytes of its line, which are UTF-8, and the
budget counts them, what the frames hold, and `others`. -/
structure LineBooks (category : String) (others : Int) (call : LineCall) : Prop where
  balanced : call.parser.pendingBudgetBytes = call.parser.line.length
  valid : Utf8.Valid call.parser.line
  frames : ∀ frame ∈ call.frames, 0 ≤ frame.charge
  counts : Counts category (call.parser.line.length + charges call.frames + others) call.budget

theorem LineBooks.of_sameParser {category : String} {others : Int} {call : LineCall} {parser : LineParser}
    (books : LineBooks category others call) (line : parser.line = call.parser.line)
    (pending : parser.pendingBudgetBytes = call.parser.pendingBudgetBytes) :
    LineBooks category others { call with parser } where
  balanced := by
    rw [pending, line]
    exact books.balanced
  valid := by
    rw [line]
    exact books.valid
  frames := books.frames
  counts := by
    simp only [line]
    exact books.counts

/-- What a call leaves that raises: the books, and no underflow. -/
def LineFailed (category : String) (others : Int) (error : StreamError) (call : LineCall) : Prop :=
  ¬ error.Underflow ∧ LineBooks category others call

section Calls

variable {category : String} {others : Int}

theorem lineFailWith_spec {α : Type} {error : StreamError} {pre : LineCall → Prop}
    {post : α → LineCall → Prop} (harmless : ¬ error.Underflow)
    (books : ∀ call, pre call → LineBooks category others call) :
    Raise.Spec pre (LineCall.failWith error) post (LineFailed category others) :=
  fun call start => ⟨harmless, (books call start).of_sameParser rfl rfl⟩

theorem validateCompleteLine_spec :
    Raise.Spec (LineBooks category others) LineCall.validateCompleteLine
      (fun _ => LineBooks category others) (LineFailed category others) := by
  refine Raise.Spec.bind_get fun seen books => ?_
  refine Raise.Spec.ite (fun _ => lineFailWith_spec ?_ fun _ same => same ▸ books) fun _ => ?_
  · rintro (same | same | same) <;> cases same
  · exact Raise.Spec.pure fun _ same => same ▸ books

theorem validatePending_spec :
    Raise.Spec (LineBooks category others) LineCall.validatePending
      (fun _ => LineBooks category others) (LineFailed category others) := by
  refine Raise.Spec.bind_get fun seen books => ?_
  refine Raise.Spec.ite (fun _ => lineFailWith_spec ?_ fun _ same => same ▸ books) fun _ => ?_
  · rintro (same | same | same) <;> cases same
  · exact Raise.Spec.pure fun _ same => same ▸ books

/-- **Appending** charges the bytes of the text to the line. -/
theorem appendLineText_spec (remain : 0 ≤ others) (text : PyStr) :
    Raise.Spec (LineBooks category others) (LineCall.appendLineText text)
      (fun _ => LineBooks category others) (LineFailed category others) := by
  refine Raise.Spec.ite (fun _ => Raise.Spec.pure fun _ books => books) fun _ => ?_
  cases outcome : Utf8.encodePoints text with
  | none => exact lineFailWith_spec (by decide) fun _ books => books
  | some encoded =>
    obtain ⟨letters, -, rfl⟩ := Utf8.encodePoints_eq_some_iff.mp outcome
    -- the budget counts the bytes before the line holds them
    refine Raise.Spec.bind (fun _ => LineBooks category (others + (Utf8.encode letters).length)) ?_
      fun _ => Raise.Spec.bind (fun _ => LineBooks category others) (Raise.Spec.modify ?_)
        fun _ => validateCompleteLine_spec
    · refine Raise.Spec.zoom fun call books => ?_
      have held := charges_nonneg books.frames
      refine (((reserve_spec category _ _ (by omega)).at books.counts).returning ?_).raising ?_
      · intro _ budget counts
        refine ⟨books.balanced, books.valid, books.frames, ?_⟩
        have size : max ((Utf8.encode letters).length : Int) 0 = (Utf8.encode letters).length := by
          omega
        rwa [size, Int.add_assoc] at counts
      · rintro error budget ⟨rfl, counts⟩
        exact ⟨by decide, books.balanced, books.valid, books.frames, counts⟩
    · intro call books
      obtain ⟨before, line⟩ := books.valid
      refine ⟨?_, ⟨before ++ letters, ?_⟩, books.frames, ?_⟩
      · simp [books.balanced]
      · simp only [line, Utf8.encode_append]
      · have counts := books.counts
        have total : ((call.parser.line ++ Utf8.encode letters).length : Int) +
            charges call.frames + others = call.parser.line.length + charges call.frames +
              (others + (Utf8.encode letters).length) := by
          rw [List.length_append]
          omega
        simp only [total]
        exact counts

/-- **Transferring** moves what is charged for the line to a frame. -/
theorem transferLineFrame_spec :
    Raise.Spec (LineBooks category others) LineCall.transferLineFrame
      (fun _ => LineBooks category others) (LineFailed category others) := by
  refine Raise.Spec.bind_get fun seen books => ?_
  obtain ⟨letters, line⟩ := books.valid
  rw [line, Utf8.decodeAll_encode]
  refine Raise.Spec.bind _ (Raise.Spec.modify ?_) fun _ => Raise.Spec.pure fun _ done => done
  rintro call rfl
  refine ⟨rfl, ⟨[], rfl⟩, ?_, ?_⟩
  · intro frame member
    rcases List.mem_append.mp member with before | new
    · exact books.frames frame before
    · rw [List.mem_singleton.mp new]
      show 0 ≤ call.parser.pendingBudgetBytes
      rw [books.balanced]
      exact Int.natCast_nonneg _
  · have counts := books.counts
    simp only [charges_new, books.balanced, List.length_nil, Nat.cast_zero, zero_add]
    exact counts

/-- **The loop over the newlines** keeps the books. -/
theorem extractLines_spec (remain : 0 ≤ others) (text segment : PyStr) (lines : List PyStr) :
    Raise.Spec (LineBooks category others) (LineCall.extractLines segment lines text)
      (fun _ => LineBooks category others) (LineFailed category others) := by
  induction text generalizing segment lines with
  | nil =>
    exact Raise.Spec.bind _ (appendLineText_spec remain segment)
      fun _ => Raise.Spec.pure fun _ books => books
  | cons point rest ih =>
    refine Raise.Spec.ite (fun _ => ?_) fun _ => ih _ _
    refine Raise.Spec.bind _ (appendLineText_spec remain segment) fun _ => ?_
    refine Raise.Spec.bind _ validateCompleteLine_spec fun _ => ?_
    refine Raise.Spec.bind_get fun seen books => ?_
    refine Raise.Spec.ite (fun _ => ?_) fun _ => ?_
    · exact lineFailWith_spec (by rintro (same | same | same) <;> cases same)
        fun _ same => same ▸ books
    · exact Raise.Spec.bind _ (transferLineFrame_spec.at books) fun _ => ih _ _

theorem decode_spec (chunk : Chunk) :
    Raise.Spec (LineBooks category others) (LineCall.decode chunk)
      (fun _ => LineBooks category others) (LineFailed category others) := by
  refine Raise.Spec.bind_get fun seen books => ?_
  have start : ∀ call, call = seen → LineBooks category others call := fun _ same => same ▸ books
  cases chunk with
  | text content =>
    exact Raise.Spec.ite (fun _ => lineFailWith_spec (by decide) start)
      fun _ => Raise.Spec.pure start
  | bytes content =>
    simp only
    split
    · exact lineFailWith_spec (by decide) start
    · refine Raise.Spec.bind _ (Raise.Spec.modify ?_) fun _ => Raise.Spec.pure fun _ done => done
      rintro call rfl
      exact ⟨books.balanced, books.valid, books.frames, books.counts⟩

theorem normalizedText_spec (decoded : PyStr) (final : Bool) :
    Raise.Spec (LineBooks category others) (LineCall.normalizedText decoded final)
      (fun _ => LineBooks category others) (LineFailed category others) := by
  refine Raise.Spec.update fun call books => books.of_sameParser ?_ ?_
  all_goals
    simp only [LineParser.normalizeNewlines, LineParser.stripInitialBom]
    split
    · rfl
    · split <;> rfl

/-- **Releasing all that is charged.** -/
theorem releaseLineBudget_spec (remain : 0 ≤ others) (parser : LineParser)
    {frames : List RetainedTextFrame} (nonneg : 0 ≤ parser.pendingBudgetBytes)
    (each : ∀ frame ∈ frames, 0 ≤ frame.charge) :
    Raise.Spec
      (fun call => call.parser = parser ∧ call.frames = frames ∧
        Counts category (parser.pendingBudgetBytes + charges frames + others) call.budget)
      LineCall.releaseLineBudget
      (fun _ call => call.parser = { parser with pendingBudgetBytes := 0 } ∧ call.frames = frames ∧
        Counts category (charges frames + others) call.budget)
      (fun _ _ => False) := by
  have held := charges_nonneg each
  refine Raise.Spec.bind_get fun seen ⟨same, sameFrames, counts⟩ => ?_
  rw [same]
  refine Raise.Spec.bind (fun _ call => call.parser = { parser with pendingBudgetBytes := 0 } ∧
    call.frames = frames ∧
      Counts category (parser.pendingBudgetBytes + charges frames + others) call.budget)
    (Raise.Spec.modify ?_) fun _ => ?_
  · rintro call rfl
    exact ⟨by rw [same], sameFrames, counts⟩
  refine Raise.Spec.ite (fun _ => ?_) fun nothing => ?_
  · refine Raise.Spec.zoom fun call ⟨same, sameFrames, counts⟩ => ?_
    refine ((release_spec category _ _ (by omega)).at counts).returning fun _ after left => ?_
    refine ⟨same, sameFrames, ?_⟩
    rwa [show parser.pendingBudgetBytes + charges frames + others -
      max parser.pendingBudgetBytes 0 = charges frames + others by omega] at left
  · rw [not_not] at nothing
    rw [nothing, zero_add]
    exact Raise.Spec.pure fun _ done => done

/-- **Dropping the partial line** gives its bytes back. -/
theorem clearPendingLine_spec (remain : 0 ≤ others) :
    Raise.Spec (LineBooks category others) LineCall.clearPendingLine
      (fun _ => LineBooks category others) (fun _ _ => False) := by
  intro call books
  have nonneg : 0 ≤ call.parser.pendingBudgetBytes := by
    rw [books.balanced]
    exact Int.natCast_nonneg _
  refine Raise.Spec.bind (fun _ after => after.parser = { call.parser with line := [] } ∧
    after.frames = call.frames ∧ Counts category
      (call.parser.pendingBudgetBytes + charges call.frames + others) after.budget)
    (Raise.Spec.modify ?_) (fun _ => ?_) call rfl
  · rintro _ rfl
    refine ⟨rfl, rfl, ?_⟩
    rw [books.balanced]
    exact books.counts
  · refine (releaseLineBudget_spec remain { call.parser with line := [] } nonneg
      books.frames).returning ?_
    rintro _ after ⟨same, sameFrames, counts⟩
    refine ⟨by rw [same]; rfl, ⟨[], by rw [same]; rfl⟩, by rw [sameFrames]; exact books.frames, ?_⟩
    rw [same, sameFrames]
    simpa using counts

theorem lineAbandon_spec {α : Type} (remain : 0 ≤ others) {error : StreamError}
    (harmless : ¬ error.Underflow) {post : α → LineCall → Prop} :
    Raise.Spec (LineBooks category others) (LineCall.abandon error) post
      (LineFailed category others) := by
  refine Raise.Spec.bind (fun _ => LineBooks category others) (Raise.Spec.modify ?_) fun _ => ?_
  · exact fun call books => ⟨books.balanced, books.valid, books.frames, books.counts⟩
  refine Raise.Spec.bind _ ((clearPendingLine_spec remain).raising
    fun _ _ impossible => impossible.elim) fun _ => ?_
  exact Raise.Spec.throw fun _ books => ⟨harmless, books⟩

/-! ### The calls -/

theorem lineFeedSize_spec (chunk : Chunk) :
    Raise.Spec (LineBooks category others) (LineCall.validateFeedSize chunk)
      (fun _ => LineBooks category others) (LineFailed category others) := by
  refine Raise.Spec.bind_get fun seen books => ?_
  have start : ∀ call, call = seen → LineBooks category others call := fun _ same => same ▸ books
  simp only
  split
  · exact Raise.Spec.throw fun call same => ⟨by decide, start call same⟩
  · refine Raise.Spec.ite (fun _ => lineFailWith_spec ?_ start) fun _ => Raise.Spec.pure start
    rintro (same | same | same) <;> cases same

theorem lineFeedLoop_spec (remain : 0 ≤ others) (pieces : List Chunk) (lines : List PyStr) :
    Raise.Spec (LineBooks category others) (LineCall.feedLoop pieces lines)
      (fun _ => LineBooks category others) (LineFailed category others) := by
  induction pieces generalizing lines with
  | nil => exact Raise.Spec.pure fun _ books => books
  | cons piece rest ih =>
    refine Raise.Spec.bind _ (decode_spec piece) fun decoded => ?_
    refine Raise.Spec.bind _ (normalizedText_spec decoded false) fun normalized => ?_
    refine Raise.Spec.bind _ (extractLines_spec remain normalized [] []) fun extracted => ?_
    refine Raise.Spec.bind_get fun seen books => ?_
    refine Raise.Spec.ite (fun _ => ?_) fun _ => ?_
    · refine lineFailWith_spec ?_ fun _ same => same ▸ books
      rintro (same | same | same) <;> cases same
    · exact Raise.Spec.bind _ (validatePending_spec.at books) fun _ => ih _

/-- **`feed` keeps the books**, whatever it raises. -/
theorem lineFeed_spec (remain : 0 ≤ others) (chunk : Chunk) :
    Raise.Spec (LineBooks category others) (LineCall.feed chunk)
      (fun _ => LineBooks category others) (LineFailed category others) := by
  refine Raise.Spec.bind_get fun seen books => ?_
  refine Raise.Spec.ite (fun _ => ?_) fun _ => Raise.Spec.ite (fun _ => ?_) fun _ => ?_
  · exact Raise.Spec.throw fun _ same => same ▸ ⟨by decide, books⟩
  · exact Raise.Spec.throw fun _ same => same ▸ ⟨by decide, books⟩
  refine Raise.Spec.tryExcept (LineFailed category others) ?_
    fun error => Raise.Spec.given fun harmless => lineAbandon_spec remain harmless
  exact Raise.Spec.bind _ ((lineFeedSize_spec chunk).at books)
    fun _ => lineFeedLoop_spec remain _ _

/-- **`finish` keeps the books**, whatever it raises. -/
theorem lineFinish_spec (remain : 0 ≤ others) :
    Raise.Spec (LineBooks category others) LineCall.finish
      (fun _ => LineBooks category others) (LineFailed category others) := by
  refine Raise.Spec.bind_get fun seen books => ?_
  refine Raise.Spec.ite (fun _ => ?_) fun _ => Raise.Spec.ite (fun _ => ?_) fun _ => ?_
  · exact Raise.Spec.throw fun _ same => same ▸ ⟨by decide, books⟩
  · exact Raise.Spec.pure fun _ same => same ▸ books
  refine Raise.Spec.bind (fun _ => LineBooks category others) (Raise.Spec.modify ?_) fun _ => ?_
  · rintro call rfl
    exact ⟨books.balanced, books.valid, books.frames, books.counts⟩
  refine Raise.Spec.tryExcept (LineFailed category others) ?_
    fun error => Raise.Spec.given fun harmless => lineAbandon_spec remain harmless
  refine Raise.Spec.bind_get fun seen books => ?_
  have start : ∀ call, call = seen → LineBooks category others call := fun _ same => same ▸ books
  refine Raise.Spec.ite (fun _ => lineFailWith_spec (by decide) start) fun _ => ?_
  refine Raise.Spec.bind _ ((normalizedText_spec [] true).at books) fun normalized => ?_
  refine Raise.Spec.bind _ (extractLines_spec remain normalized [] []) fun lines => ?_
  refine Raise.Spec.bind_get fun final books => ?_
  refine Raise.Spec.ite (fun _ => Raise.Spec.pure fun _ same => same ▸ books) fun _ => ?_
  refine Raise.Spec.bind _ (validateCompleteLine_spec.at books) fun _ => ?_
  exact Raise.Spec.bind _ transferLineFrame_spec fun _ => Raise.Spec.pure fun _ books => books

/-- **`discard` keeps the books** and raises nothing. -/
theorem lineDiscard_spec (remain : 0 ≤ others) :
    Raise.Spec (LineBooks category others) LineCall.discard
      (fun _ => LineBooks category others) (fun _ _ => False) := by
  refine Raise.Spec.bind (fun _ => LineBooks category others) (Raise.Spec.modify ?_)
    fun _ => clearPendingLine_spec remain
  exact fun call books => ⟨books.balanced, books.valid, books.frames, books.counts⟩

end Calls

end UniApi.Streaming
