/-
**The cuts of a stream do not show in its frames.**

What a stream of byte chunks gives is a function of the state of the parser and of the bytes:
`streamResult` decodes the chunks up to the first refused one and runs `textMachine` over the text.

* `drive_eq`: feeding the chunks and finishing gives that result, unless a limit is reached or a
  reservation is refused;
* `textMachine_reference`: on a whole text the machine computes `sseReference`;
* `feed_split_invariant`: chunked and whole, the outcome is the same, and the frames are the same
  unless a byte is refused; for UTF-8 they are those of the reference;
* `refused_chunk_drops_frames`: the call that meets a refused byte raises, and the frames it had
  completed are not returned.
-/

import UniApi.Streaming.SseCalls

namespace UniApi.Streaming

open UniApi.Lib RetainedBudget

/-! ### The reference -/

/-- The frames of a text: drop one leading U+FEFF, turn CRLF and lone CR into LF, and cut at each LF
that directly follows an LF of the current event. -/
def sseReference (text : PyStr) : List PyStr :=
  ((blankLines lfPoint).run [] (normalizeLines crPoint lfPoint (removeMark bomPoint text))).1

/-- The text behind the two text stages. -/
def linesOf (stage : Bool × Bool × PyStr) (text : PyStr) : PyStr :=
  ((newlines crPoint lfPoint).run stage.2.1 ((leadingMark bomPoint).run stage.1 text).1).1

theorem textMachine_frames (stage : Bool × Bool × PyStr) (text : PyStr) :
    (textMachine.run stage text).1 =
      ((blankLines lfPoint).run stage.2.2 (linesOf stage text)).1 := by
  unfold textMachine
  rw [Mealy.cascade_run, Mealy.cascade_run]
  rfl

theorem textMachine_event (stage : Bool × Bool × PyStr) (text : PyStr) :
    (textMachine.run stage text).2.2.2 =
      ((blankLines lfPoint).run stage.2.2 (linesOf stage text)).2 := by
  unfold textMachine
  rw [Mealy.cascade_run, Mealy.cascade_run]
  rfl

/-- **The machine computes the reference** from its first state. -/
theorem textMachine_reference (text : PyStr) :
    (textMachine.run (true, false, []) text).1 = sseReference text := by
  rw [textMachine_frames, linesOf, leadingMark_text, newlines_run (by decide)]
  rfl

/-! ### One call -/

theorem blocks_flatten {α : Type} (size fuel : Nat) (list : List α) (enough : list.length ≤ fuel) :
    (blocks (size + 1) fuel list).flatten = list := by
  induction fuel generalizing list with
  | zero =>
    rw [List.length_eq_zero_iff.mp (Nat.le_zero.mp enough)]
    rfl
  | succ fuel ih =>
    cases list with
    | nil => rfl
    | cons head tail =>
      have shorter : ((head :: tail).drop (size + 1)).length ≤ fuel := by
        rw [List.length_drop]
        omega
      simp only [blocks, List.flatten_cons, ih _ shorter, List.take_append_drop]

theorem decodeFrom_bytes (undecoded : Bytes) (pieces : List Bytes) :
    decodeFrom undecoded (pieces.map .bytes) = Utf8.decode undecoded pieces.flatten := by
  induction pieces generalizing undecoded with
  | nil => rfl
  | cons piece rest ih =>
    rw [List.flatten_cons, Utf8.decode_append, List.map_cons, decodeFrom]
    simp only [Chunk.decoded, ih]

/-- The internal pieces of a chunk of bytes decode as the chunk. -/
theorem decodeFrom_feedPieces (undecoded bytes : Bytes) :
    decodeFrom undecoded (feedPieces (.bytes bytes)) = Utf8.decode undecoded bytes := by
  rw [feedPieces, decodeFrom_bytes, internalFeedChunkUnits,
    blocks_flatten _ _ _ (Nat.le_refl bytes.length)]

/-- Bytes are refused for a limit or a refused reservation, or because they are no UTF-8. -/
theorem Refuses.bytes {undecoded bytes : Bytes} {error : StreamError}
    (refuses : Refuses undecoded false (feedPieces (.bytes bytes)) error) :
    error.isResource = true ∨ (Utf8.decode undecoded bytes = none ∧ error = invalidUtf8) := by
  rcases refuses with resource | ⟨refused, same⟩ | ⟨isText, -⟩
  · exact Or.inl resource
  · rw [decodeFrom_feedPieces] at refused
    exact Or.inr ⟨refused, same⟩
  · cases isText

/-! ### Many calls -/

/-- The text of the chunks before the first one that is no UTF-8, and the bytes held at the end if
there is none. -/
def readChunks (held : Bytes) : List Bytes → PyStr × Option Bytes
  | [] => ([], some held)
  | chunk :: rest =>
    match Utf8.decode held chunk with
    | none => ([], none)
    | some (text, held) => (text ++ (readChunks held rest).1, (readChunks held rest).2)

/-- How a stream ends: at a refused byte, inside a character, inside an event, or between events. -/
def endingOf (held : Option Bytes) (event : PyStr) : Except StreamError Unit :=
  match held with
  | none => .error invalidUtf8
  | some held =>
    if held ≠ [] then .error incompleteUtf8
    else if event ≠ [] then .error (.incompleteEvent ((Utf8.encodePoints event).getD []).length)
    else .ok ()

/-- **What a stream of chunks gives**, from the bytes held and the state of the text stages. -/
def streamResult (held : Bytes) (stage : Bool × Bool × PyStr) (chunks : List Bytes) : StreamResult :=
  let read := readChunks held chunks
  let run := textMachine.run stage read.1
  ⟨run.1, endingOf read.2 run.2.2.2⟩

theorem SseParser.ending_eq {parser : SseParser} (sound : parser.Sound) :
    parser.ending = endingOf (some parser.undecoded) parser.pendingText := by
  obtain ⟨letters, event⟩ := sound.valid
  rw [SseParser.ending, endingOf, SseParser.pendingText_encode event, Utf8.encodePoints_toNat, event]
  cases letters with
  | nil => rfl
  | cons letter rest =>
    have nonempty : Utf8.encode (letter :: rest) ≠ [] := by
      simp [utf8_keepsLineEndings.nonempty letter]
    simp only [if_pos nonempty, if_pos (List.cons_ne_nil letter.toNat _), List.map_cons,
      Option.getD_some]

theorem streamResult_cons {held held' chunk : Bytes} {stage : Bool × Bool × PyStr} {text : PyStr}
    (decoded : Utf8.decode held chunk = some (text, held')) (chunks : List Bytes) :
    streamResult held stage (chunk :: chunks) =
      ⟨(textMachine.run stage text).1 ++
          (streamResult held' (textMachine.run stage text).2 chunks).frames,
        (streamResult held' (textMachine.run stage text).2 chunks).outcome⟩ := by
  simp only [streamResult, readChunks, decoded, Mealy.run_append]

/-- The stream failed on a limit or a refused reservation. -/
def StreamResult.exhausted (result : StreamResult) : Bool :=
  match result.outcome with
  | .ok () => false
  | .error error => error.isResource

/-- **A stream of chunks gives its result**, unless a limit is reached. -/
theorem drive_eq {category : String} {others : Int} (remain : 0 ≤ others) (chunks : List Bytes)
    (call : SseCall) (sound : call.parser.Sound) (running : call.parser.Running)
    (books : Books category others call)
    (granted : (drive (chunks.map .bytes) call).exhausted = false) :
    drive (chunks.map .bytes) call =
      streamResult call.parser.undecoded call.parser.stage chunks := by
  induction chunks generalizing call with
  | nil =>
    have ended := finish_spec remain running call ⟨rfl, books⟩
    rw [List.map_nil, drive] at granted ⊢
    rw [streamResult, readChunks, Mealy.run_nil, SseParser.stage, ← SseParser.ending_eq sound]
    cases outcome : SseCall.finish call with
    | mk result after =>
      rw [outcome] at ended granted
      cases result with
      | ok frames =>
        obtain ⟨rfl, ok, -⟩ := ended
        rw [ok]
      | error error =>
        rcases ended.1 with resource | incomplete
        · exact absurd (granted.symm.trans resource) Bool.false_ne_true
        · rw [incomplete]
  | cons chunk rest ih =>
    have fed := feed_spec remain (.bytes chunk) sound running call ⟨rfl, books⟩
    rw [List.map_cons, drive] at granted ⊢
    cases outcome : SseCall.feed (.bytes chunk) call with
    | mk result after =>
      rw [outcome] at fed granted
      cases result with
      | ok frames =>
        obtain ⟨text, decoded, run⟩ := fed.fed
        rw [decodeFrom_feedPieces] at decoded
        have later := ih after fed.sound fed.running fed.books granted
        simp only [later, streamResult_cons decoded, run]
      | error error =>
        rcases fed.1.bytes with resource | ⟨refused, same⟩
        · exact absurd (granted.symm.trans resource) Bool.false_ne_true
        · simp only [streamResult, readChunks, refused, same]
          rfl

/-! ### Chunked and whole -/

/-- A fresh parser at a budget. -/
def SseCall.fresh (limits : SseLimits) (budget : RetainedBudget) : SseCall :=
  { parser := SseParser.new limits, budget, frames := [] }

/-- A budget as its owners leave it: the parent mirrors the counter, which is not negative. -/
def RetainedBudget.Consistent (budget : RetainedBudget) : Prop := 0 ≤ budget.usedBytes ∧ budget.Mirrors

theorem RetainedBudget.consistent_fresh (capacityBytes : Int) (memoryCategory : String) :
    (fresh capacityBytes none memoryCategory).Consistent :=
  ⟨Int.le_refl 0, fun governor held => absurd held (Option.some_ne_none governor).symm⟩

theorem books_fresh (limits : SseLimits) {budget : RetainedBudget} (consistent : budget.Consistent) :
    Books budget.memoryCategory budget.usedBytes (SseCall.fresh limits budget) where
  pending := Int.le_refl 0
  frames _ member := nomatch member
  counts := ⟨rfl, (Int.zero_add _).symm, consistent.2⟩
  balanced := rfl

/-- A fresh parser gives the result of its first state. -/
theorem drive_fresh (limits : SseLimits) {budget : RetainedBudget} (consistent : budget.Consistent)
    (chunks : List Bytes)
    (granted : (drive (chunks.map .bytes) (SseCall.fresh limits budget)).exhausted = false) :
    drive (chunks.map .bytes) (SseCall.fresh limits budget) =
      streamResult [] (true, false, []) chunks :=
  drive_eq consistent.1 chunks (SseCall.fresh limits budget) (SseParser.sound_new limits)
    (SseParser.running_new limits) (books_fresh limits consistent) granted

theorem readChunks_decoded {held rest : Bytes} {chunks : List Bytes} {text : PyStr}
    (decoded : Utf8.decode held chunks.flatten = some (text, rest)) :
    readChunks held chunks = (text, some rest) := by
  induction chunks generalizing held text with
  | nil =>
    cases decoded
    rfl
  | cons chunk chunks ih =>
    rw [List.flatten_cons, Utf8.decode_append] at decoded
    rw [readChunks]
    cases here : Utf8.decode held chunk with
    | none => simp [here] at decoded
    | some found =>
      obtain ⟨first, middle⟩ := found
      simp only [here, Option.bind_eq_bind, Option.bind_some] at decoded
      cases later : Utf8.decode middle chunks.flatten with
      | none => simp [later] at decoded
      | some found' =>
        obtain ⟨second, last⟩ := found'
        simp only [later, Option.bind_some, Option.pure_def, Option.some.injEq,
          Prod.mk.injEq] at decoded
        obtain ⟨rfl, rfl⟩ := decoded
        simp only [ih later]

/-- Chunks that do not decode are read up to the first one that is refused. -/
theorem readChunks_refused {held : Bytes} {chunks : List Bytes}
    (undecodable : Utf8.decode held chunks.flatten = none) :
    (readChunks held chunks).2 = none ∧
      ∃ before chunk after text middle, chunks = before ++ chunk :: after ∧
        Utf8.decode held before.flatten = some (text, middle) ∧
        Utf8.decode middle chunk = none ∧ (readChunks held chunks).1 = text := by
  induction chunks generalizing held with
  | nil => cases undecodable
  | cons chunk chunks ih =>
    rw [List.flatten_cons, Utf8.decode_append] at undecodable
    rw [readChunks]
    cases here : Utf8.decode held chunk with
    | none => exact ⟨rfl, [], chunk, chunks, [], held, rfl, rfl, here, rfl⟩
    | some found =>
      obtain ⟨first, middle⟩ := found
      simp only [here, Option.bind_eq_bind, Option.bind_some] at undecodable
      have later : Utf8.decode middle chunks.flatten = none := by
        cases later : Utf8.decode middle chunks.flatten with
        | none => rfl
        | some found' => simp [later] at undecodable
      obtain ⟨refused, before, bad, after, text, last, cut, decoded, bad', same⟩ := ih later
      refine ⟨refused, chunk :: before, bad, after, first ++ text, last, by rw [cut]; rfl, ?_, bad',
        by simp only [same]⟩
      rw [List.flatten_cons, Utf8.decode_append, here]
      simp [decoded]

/-- **The cuts of a stream show only where a byte is refused.** -/
theorem feed_split_invariant (limits limits' : SseLimits) (budget budget' : RetainedBudget)
    (consistent : budget.Consistent) (consistent' : budget'.Consistent) (chunks : List Bytes)
    (granted : (drive (chunks.map .bytes) (SseCall.fresh limits budget)).exhausted = false)
    (granted' : (drive [.bytes chunks.flatten] (SseCall.fresh limits' budget')).exhausted = false) :
    let split := drive (chunks.map .bytes) (SseCall.fresh limits budget)
    let whole := drive [.bytes chunks.flatten] (SseCall.fresh limits' budget')
    split.outcome = whole.outcome ∧
      (split.outcome ≠ .error invalidUtf8 → split.frames = whole.frames) ∧
      (split.outcome = .error invalidUtf8 → whole.frames = [] ∧
        ∃ before chunk after text held, chunks = before ++ chunk :: after ∧
          Utf8.decode [] before.flatten = some (text, held) ∧
          Utf8.decode held chunk = none ∧ split.frames = sseReference text) ∧
      (∀ letters : List Char, chunks.flatten = Utf8.encode letters →
        split.frames = sseReference (letters.map Char.toNat)) := by
  intro split whole
  have splitEq : split = streamResult [] (true, false, []) chunks :=
    drive_fresh limits consistent chunks granted
  have wholeEq : whole = streamResult [] (true, false, []) [chunks.flatten] :=
    drive_fresh limits' consistent' [chunks.flatten] granted'
  cases decoded : Utf8.decode [] chunks.flatten with
  | some found =>
    obtain ⟨text, held⟩ := found
    have read : readChunks [] [chunks.flatten] = (text, some held) :=
      readChunks_decoded (by rwa [List.flatten_singleton])
    have same : split = whole := by
      rw [splitEq, wholeEq, streamResult, streamResult, readChunks_decoded decoded, read]
    refine ⟨by rw [same], fun _ => by rw [same], fun invalid => ?_, fun letters encoded => ?_⟩
    · rw [splitEq, streamResult, readChunks_decoded decoded] at invalid
      simp only [endingOf] at invalid
      split at invalid
      · exact absurd invalid (by decide)
      split at invalid
      · simp [invalidUtf8] at invalid
      · cases invalid
    · rw [encoded, Utf8.decode_encode] at decoded
      cases decoded
      rw [splitEq, streamResult, readChunks_decoded (by rw [encoded, Utf8.decode_encode]),
        textMachine_reference]
  | none =>
    obtain ⟨refused, before, chunk, after, text, held, cut, decodedBefore, bad, same⟩ :=
      readChunks_refused decoded
    have outcome : split.outcome = .error invalidUtf8 := by
      rw [splitEq, streamResult, refused]
      rfl
    have read : readChunks [] [chunks.flatten] = ([], none) := by
      rw [readChunks, decoded]
    refine ⟨?_, fun valid => absurd outcome valid, fun _ => ⟨?_, before, chunk, after, text, held,
      cut, decodedBefore, bad, ?_⟩, fun letters encoded => ?_⟩
    · rw [outcome, wholeEq, streamResult, read]
      rfl
    · rw [wholeEq, streamResult, read]
      rfl
    · rw [splitEq, streamResult, same, textMachine_reference]
    · rw [encoded, Utf8.decode_encode] at decoded
      cases decoded

/-- A fresh parser without byte limits, at a budget of its own. -/
def SseCall.unlimited : SseCall :=
  SseCall.fresh ⟨0, 0, 4096, 0, Nat.zero_lt_succ 4095⟩ (RetainedBudget.fresh 1000 none "stream_parser")

/-- A CRLF, a two-byte character and a separator cut in the middle. -/
theorem feed_split_invariant_cut :
    (drive [.bytes [0x64, 0xC3], .bytes [0xA9, 0x0D], .bytes [], .bytes [0x0A, 0x0D], .bytes [0x0A]]
        SseCall.unlimited).frames =
      (drive [.bytes [0x64, 0xC3, 0xA9, 0x0D, 0x0A, 0x0D, 0x0A]] SseCall.unlimited).frames :=
  (feed_split_invariant ⟨0, 0, 4096, 0, by decide⟩ ⟨0, 0, 4096, 0, by decide⟩
    (RetainedBudget.fresh 1000 none "stream_parser") (RetainedBudget.fresh 1000 none "stream_parser")
    (consistent_fresh 1000 _) (consistent_fresh 1000 _)
    [[0x64, 0xC3], [0xA9, 0x0D], [], [0x0A, 0x0D], [0x0A]] (by decide +kernel)
    (by decide +kernel)).2.1 (by decide +kernel)

/-- **Frames dropped with a refused chunk**: the call that meets the bad byte returns nothing. -/
theorem refused_chunk_drops_frames :
    drive [.bytes (Utf8.lit "data: a\n\n"), .bytes [0xFF]] SseCall.unlimited =
        ⟨[Utf8.points "data: a"], .error invalidUtf8⟩ ∧
      drive [.bytes (Utf8.lit "data: a\n\n" ++ [0xFF])] SseCall.unlimited =
        ⟨[], .error invalidUtf8⟩ := by
  decide +kernel

end UniApi.Streaming
