/-
**The structure check in front of zstd decompression.**

`_ensure_complete_zstd_frames` follows the heads of frames and blocks through a body and
decompresses nothing. What it reads is kept beside its result.

* `blockLoop_sound`, `frameLoop_sound`: where a loop returns, blocks and frames stand, and reads are
  inside the body;
* `blockLoop_complete`, `frameLoop_complete`: where they stand, it returns;
* `ensureCompleteZstdFrames_iff`: the check accepts the frame grammar and gives the largest window.
-/

import UniApi.Lib.Raise
import UniApi.Lib.Zstd

namespace UniApi.Middleware

open UniApi.Lib UniApi.Lib.Zstd

/-- What the check raises, or that it needs more steps than it was given. -/
inductive ZstdFault where
  | zstdError (message : String)
  | unfinished
  deriving DecidableEq

/-- The two calls of the zstandard library. -/
structure ZstdHeaders where
  frameHeaderSize : Bytes → Option ℕ
  getFrameParameters : Bytes → Option FrameParameters

/-- **The library describes the header** at the start of its argument, and fails without one. -/
structure ZstdHeaders.Describe (library : ZstdHeaders) (IsHeader : Bytes → FrameParameters → Prop) :
    Prop where
  size : ∀ {header parameters}, IsHeader header parameters → ∀ rest,
    library.frameHeaderSize (header ++ rest) = some header.length
  parameters : ∀ {header parameters}, IsHeader header parameters → ∀ rest,
    library.getFrameParameters (header ++ rest) = some parameters
  fails : ∀ data, (∀ header parameters rest, data = header ++ rest → ¬ IsHeader header parameters) →
    library.frameHeaderSize data = none ∨ library.getFrameParameters data = none
  five_le : ∀ {header parameters}, IsHeader header parameters → 5 ≤ header.length

/-- From where to where a part of the body is read. -/
abbrev ByteRange := ℕ × ℕ

/-- A check that may raise, and what it reads. -/
abbrev ZstdCheck := Raise ZstdFault (List ByteRange)

namespace ZstdCheck

/-- `raise zstd.ZstdError(message)`. -/
def zstdError {α : Type} (message : String) : ZstdCheck α := Raise.throw (.zstdError message)

/-- `view[start:stop]`. -/
def view (body : Bytes) (start stop : ℕ) : ZstdCheck Bytes :=
  Raise.update fun reads => ((body.drop start).take (stop - start), reads ++ [(start, stop)])

/-- The loop over the blocks of a frame. -/
def blockLoop (body : Bytes) : ℕ → ℕ → ZstdCheck ℕ
  | 0, _ => Raise.throw .unfinished
  | fuel + 1, cursor =>
    if body.length - cursor < 3 then zstdError "incomplete zstd block header"
    else do
      let blockHeader := little (← view body cursor (cursor + 3))
      let cursor := cursor + 3
      let lastBlock := blockHeader &&& 1 ≠ 0
      let blockType := (blockHeader >>> 1) &&& 0b11
      let blockSize := blockHeader >>> 3
      if blockType = 0b11 then zstdError "reserved zstd block type"
      else
        let payloadSize := if blockType = 0b01 then 1 else blockSize
        if cursor + payloadSize > body.length then zstdError "incomplete zstd block payload"
        else
          let cursor := cursor + payloadSize
          if lastBlock then return cursor else blockLoop body fuel cursor

/-- The handler of `except (ValueError, zstd.ZstdError)`. -/
def described {α : Type} : Option α → ZstdCheck α
  | some value => return value
  | none => zstdError "incomplete zstd frame header"

/-- One pass of the loop over frames: where the next frame begins, and the window. -/
def frameStep (library : ZstdHeaders) (body : Bytes) (offset maxWindowSize : ℕ) :
    ZstdCheck (ℕ × ℕ) :=
  if body.length - offset < 4 then zstdError "incomplete zstd frame magic"
  else do
    let magic := little (← view body offset (offset + 4))
    if 0x184D2A50 ≤ magic ∧ magic ≤ 0x184D2A5F then
      if body.length - offset < 8 then zstdError "incomplete zstd skippable frame header"
      else do
        let payloadSize := little (← view body (offset + 4) (offset + 8))
        let frameEnd := offset + 8 + payloadSize
        if frameEnd > body.length then zstdError "incomplete zstd skippable frame"
        else return (frameEnd, maxWindowSize)
    else if magic ≠ 0xFD2FB528 then zstdError "invalid zstd frame magic"
    else do
      let headerSize ← described (library.frameHeaderSize (← view body offset body.length))
      let parameters ← described (library.getFrameParameters (← view body offset body.length))
      let maxWindowSize := max maxWindowSize parameters.windowSize
      let cursor ← blockLoop body (body.length + 1) (offset + headerSize)
      if parameters.hasChecksum then
        if cursor + 4 > body.length then zstdError "incomplete zstd frame checksum"
        else return (cursor + 4, maxWindowSize)
      else return (cursor, maxWindowSize)

/-- The loop over the frames. -/
def frameLoop (library : ZstdHeaders) (body : Bytes) : ℕ → ℕ → ℕ → ZstdCheck ℕ
  | 0, _, _ => Raise.throw .unfinished
  | fuel + 1, offset, maxWindowSize =>
    if offset < body.length then do
      let (offset, maxWindowSize) ← frameStep library body offset maxWindowSize
      frameLoop library body fuel offset maxWindowSize
    else return maxWindowSize

/-- `_ensure_complete_zstd_frames`. -/
def ensureCompleteZstdFrames (library : ZstdHeaders) (body : Bytes) : ZstdCheck ℕ :=
  frameLoop library body (body.length + 1) 0 0

end ZstdCheck

open ZstdCheck

/-! ### Where a loop returns -/

/-- Every read is inside the body. -/
def Inside (body : Bytes) (reads : List ByteRange) : Prop :=
  ∀ read ∈ reads, read.1 ≤ read.2 ∧ read.2 ≤ body.length

/-- What a check leaves that raises. -/
def Refuses (body : Bytes) (fault : ZstdFault) (reads : List ByteRange) : Prop :=
  fault ≠ .unfinished ∧ Inside body reads

section Sound

variable {body : Bytes}

theorem zstdError_spec {α : Type} {message : String} {post : α → List ByteRange → Prop} :
    Raise.Spec (Inside body) (zstdError message) post (Refuses body) :=
  Raise.Spec.throw fun _ inside => ⟨nofun, inside⟩

theorem view_spec {start stop : ℕ} (ordered : start ≤ stop) (within : stop ≤ body.length) :
    Raise.Spec (Inside body) (view body start stop)
      (fun bytes reads => bytes = (body.drop start).take (stop - start) ∧ Inside body reads)
      (Refuses body) := by
  refine Raise.Spec.update fun reads inside => ⟨rfl, fun read among => ?_⟩
  rcases List.mem_append.mp among with before | new
  · exact inside read before
  · rw [List.mem_singleton.mp new]
    exact ⟨ordered, within⟩

theorem drop_parts (start size : ℕ) :
    body.drop start = (body.drop start).take size ++ body.drop (start + size) := by
  rw [← List.drop_drop, List.take_append_drop]

theorem length_part {start size : ℕ} (within : start + size ≤ body.length) :
    ((body.drop start).take size).length = size := by
  rw [List.length_take, List.length_drop]
  omega

theorem blockHeader_bits (number : ℕ) :
    (number &&& 1 ≠ 0 ↔ number % 2 = 1) ∧ (number >>> 1) &&& 0b11 = number / 2 % 4 ∧
      number >>> 3 = number / 8 := by
  refine ⟨?_, ?_, Nat.shiftRight_eq_div_pow number 3⟩
  · rw [Nat.and_one_is_mod]
    omega
  · rw [Nat.shiftRight_eq_div_pow]
    exact Nat.and_two_pow_sub_one_eq_mod (number / 2 ^ 1) 2

/-- **Where the loop over blocks returns**, blocks stand. -/
theorem blockLoop_sound (fuel cursor : ℕ) (enough : body.length - cursor < fuel) :
    Raise.Spec (Inside body) (blockLoop body fuel cursor)
      (fun after reads => (cursor < after ∧ after ≤ body.length ∧
        ∃ blocks : Blocks, body.drop cursor = blocks.encode ++ body.drop after) ∧ Inside body reads)
      (Refuses body) := by
  induction fuel generalizing cursor with
  | zero => exact absurd enough (Nat.not_lt_zero _)
  | succ fuel ih =>
    refine Raise.Spec.ite (fun _ => zstdError_spec) fun room => ?_
    refine Raise.Spec.bind _ (view_spec (Nat.le_add_right cursor 3) (by omega)) fun head =>
      Raise.Spec.given fun isHead => ?_
    rw [Nat.add_sub_cancel_left] at isHead
    obtain ⟨lastBit, typeBits, sizeBits⟩ := blockHeader_bits (little head)
    simp only [typeBits, sizeBits]
    refine Raise.Spec.ite (fun _ => zstdError_spec) fun known => ?_
    refine Raise.Spec.ite (fun _ => zstdError_spec) fun fits => ?_
    obtain ⟨size, isSize⟩ :
        ∃ size, (if little head / 2 % 4 = 1 then 1 else little head / 8) = size := ⟨_, rfl⟩
    rw [isSize] at fits ⊢
    let block : Block := {
      last := decide (little head % 2 = 1)
      type := .ofCode (little head / 2 % 4)
      size := little head / 8
      head := head
      payload := (body.drop (cursor + 3)).take size
      head_length := by
        rw [isHead]
        exact length_part (by omega)
      little_head := by
        rw [BlockType.code_ofCode (by omega)]
        rcases Nat.mod_two_eq_zero_or_one (little head) with even | odd
        · rw [even]
          simp
          omega
        · rw [odd]
          simp
          omega
      payload_length := by
        rw [length_part (by omega), BlockType.payloadLength_ofCode, isSize] }
    have here : body.drop cursor = block.encode ++ body.drop (cursor + 3 + size) := by
      rw [drop_parts cursor 3, ← isHead, drop_parts (cursor + 3) size, ← List.append_assoc]
      rfl
    refine Raise.Spec.ite (fun isLast => ?_) fun notLast => ?_
    · have final : block.last = true := decide_eq_true (lastBit.mp isLast)
      refine Raise.Spec.pure fun reads inside =>
        ⟨⟨by omega, by omega, ⟨[], block, List.forall_mem_nil _, final⟩, ?_⟩, inside⟩
      exact here
    · have more : block.last = false := decide_eq_false fun odd => notLast (lastBit.mpr odd)
      refine (ih (cursor + 3 + size) (by omega)).returning ?_
      rintro after reads ⟨⟨further, within, blocks, stand⟩, inside⟩
      refine ⟨⟨by omega, within, .cons block more blocks, ?_⟩, inside⟩
      rw [Blocks.encode_cons, List.append_assoc, ← stand, here]

variable {library : ZstdHeaders} {IsHeader : Bytes → FrameParameters → Prop}

theorem described_spec {α : Type} (value : Option α) :
    Raise.Spec (Inside body) (described value)
      (fun found reads => value = some found ∧ Inside body reads) (Refuses body) := by
  cases value with
  | none => exact zstdError_spec
  | some found => exact Raise.Spec.pure fun _ inside => ⟨rfl, inside⟩

/-- Where both calls of the library return, a header stands. -/
theorem header_stands (describe : library.Describe IsHeader) {data : Bytes} {size : ℕ}
    {parameters : FrameParameters} (isSize : library.frameHeaderSize data = some size)
    (isParameters : library.getFrameParameters data = some parameters) :
    ∃ header rest, data = header ++ rest ∧ IsHeader header parameters ∧ header.length = size := by
  by_contra missing
  have absent : ∀ header declared rest, data = header ++ rest → ¬ IsHeader header declared := by
    intro header declared rest whole isHeader
    have sameSize := describe.size isHeader rest
    have sameParameters := describe.parameters isHeader rest
    rw [← whole, isSize] at sameSize
    rw [← whole, isParameters] at sameParameters
    cases sameSize
    cases sameParameters
    exact missing ⟨header, rest, whole, isHeader, rfl⟩
  rcases describe.fails data absent with refused | refused
  · rw [isSize] at refused
    cases refused
  · rw [isParameters] at refused
    cases refused

/-- **Where a pass returns**, a frame stands. -/
theorem frameStep_sound (describe : library.Describe IsHeader) {offset : ℕ} (maxWindowSize : ℕ)
    (inBody : offset < body.length) :
    Raise.Spec (Inside body) (frameStep library body offset maxWindowSize)
      (fun result reads => (offset < result.1 ∧ result.1 ≤ body.length ∧
        ∃ frame : Zstd.Frame IsHeader,
        body.drop offset = frame.encode ++ body.drop result.1 ∧
          result.2 = max maxWindowSize frame.window) ∧ Inside body reads)
      (Refuses body) := by
  refine Raise.Spec.ite (fun _ => zstdError_spec) fun room => ?_
  refine Raise.Spec.bind _ (view_spec (Nat.le_add_right offset 4) (by omega)) fun magic =>
    Raise.Spec.given fun isMagic => ?_
  rw [Nat.add_sub_cancel_left] at isMagic
  have magicLength : magic.length = 4 := by
    rw [isMagic]
    exact length_part (by omega)
  refine Raise.Spec.ite (fun isSkippable => ?_) fun _ => ?_
  · refine Raise.Spec.ite (fun _ => zstdError_spec) fun room => ?_
    refine Raise.Spec.bind _ (view_spec (by omega) (by omega)) fun size =>
      Raise.Spec.given fun isSize => ?_
    rw [show offset + 8 - (offset + 4) = 4 by omega] at isSize
    refine Raise.Spec.ite (fun _ => zstdError_spec) fun fits => ?_
    have magicPart : body.drop offset = magic ++ body.drop (offset + 4) := by
      rw [isMagic]
      exact drop_parts offset 4
    have sizePart : body.drop (offset + 4) = size ++ body.drop (offset + 8) := by
      rw [isSize]
      exact drop_parts (offset + 4) 4
    have stands : body.drop offset = magic ++ size ++ (body.drop (offset + 8)).take (little size) ++
        body.drop (offset + 8 + little size) := by
      rw [List.append_assoc, List.append_assoc, ← drop_parts (offset + 8), ← sizePart, ← magicPart]
    refine Raise.Spec.pure fun reads inside =>
      ⟨⟨by dsimp only; omega, by dsimp only; omega, .skippable {
      magic := magic
      size := size
      payload := (body.drop (offset + 8)).take (little size)
      magic_length := magicLength
      magic_range := isSkippable
      size_length := by
        rw [isSize]
        exact length_part (by omega)
      payload_length := length_part (by omega) }, stands, (Nat.max_zero _).symm⟩, inside⟩
  · refine Raise.Spec.ite (fun _ => zstdError_spec) fun isStandard => ?_
    rw [not_not] at isStandard
    have whole : (body.drop offset).take (body.length - offset) = body.drop offset :=
      List.take_of_length_le (by rw [List.length_drop])
    refine Raise.Spec.bind _ (view_spec (by omega) (Nat.le_refl _)) fun front =>
      Raise.Spec.given fun isFront => ?_
    refine Raise.Spec.bind _ (described_spec _) fun headerSize => Raise.Spec.given fun isSize => ?_
    refine Raise.Spec.bind _ (view_spec (by omega) (Nat.le_refl _)) fun again =>
      Raise.Spec.given fun isAgain => ?_
    refine Raise.Spec.bind _ (described_spec _) fun parameters =>
      Raise.Spec.given fun isParameters => ?_
    rw [isFront, whole] at isSize
    rw [isAgain, whole] at isParameters
    obtain ⟨header, rest, data, isHeader, headerLength⟩ :=
      header_stands describe isSize isParameters
    have five := describe.five_le isHeader
    have headerMagic : header.take 4 = magic := by
      rw [isMagic, data, List.take_append_of_le_length (by omega)]
    have behind : body.drop (offset + headerSize) = rest := by
      rw [← List.drop_drop, data, ← headerLength, List.drop_left]
    refine Raise.Spec.bind _ (blockLoop_sound (body.length + 1) (offset + headerSize) (by omega))
      fun cursor => Raise.Spec.given fun ⟨further, within, blocks, stand⟩ => ?_
    rw [behind] at stand
    refine Raise.Spec.ite (fun hasChecksum => ?_) fun noChecksum => ?_
    · refine Raise.Spec.ite (fun _ => zstdError_spec) fun fits => ?_
      refine Raise.Spec.pure fun reads inside =>
        ⟨⟨by dsimp only; omega, by dsimp only; omega, .standard {
        header := header
        parameters := parameters
        blocks := blocks
        checksum := (body.drop cursor).take 4
        header_magic := by
          rw [headerMagic]
          exact isStandard
        isHeader := isHeader
        checksum_length := by
          rw [if_pos hasChecksum]
          exact length_part (by omega) }, ?_, rfl⟩, inside⟩
      show body.drop offset =
        header ++ blocks.encode ++ (body.drop cursor).take 4 ++ body.drop (cursor + 4)
      rw [data, stand, List.append_assoc, List.append_assoc, ← drop_parts cursor 4]
    · refine Raise.Spec.pure fun reads inside =>
        ⟨⟨by dsimp only; omega, by dsimp only; omega, .standard {
        header := header
        parameters := parameters
        blocks := blocks
        checksum := []
        header_magic := by
          rw [headerMagic]
          exact isStandard
        isHeader := isHeader
        checksum_length := by
          rw [if_neg noChecksum]
          rfl }, ?_, rfl⟩, inside⟩
      show body.drop offset = header ++ blocks.encode ++ [] ++ body.drop cursor
      rw [data, stand, List.append_nil, List.append_assoc]

/-- **Where the loop over frames returns**, frames stand to the end. -/
theorem frameLoop_sound (describe : library.Describe IsHeader) (fuel offset maxWindowSize : ℕ)
    (enough : body.length - offset < fuel) :
    Raise.Spec (Inside body) (frameLoop library body fuel offset maxWindowSize)
      (fun window reads => (∃ frames : List (Zstd.Frame IsHeader),
        body.drop offset = encodeFrames frames ∧
          window = max maxWindowSize (maxWindow frames)) ∧ Inside body reads)
      (Refuses body) := by
  induction fuel generalizing offset maxWindowSize with
  | zero => exact absurd enough (Nat.not_lt_zero _)
  | succ fuel ih =>
    refine Raise.Spec.ite (fun inBody => ?_) fun atEnd => ?_
    · refine Raise.Spec.bind _ (frameStep_sound describe maxWindowSize inBody) fun result =>
        Raise.Spec.given fun ⟨further, within, frame, stands, isWindow⟩ => ?_
      refine (ih result.1 result.2 (by omega)).returning ?_
      rintro window reads ⟨⟨frames, rest, isMax⟩, inside⟩
      refine ⟨⟨frame :: frames, ?_, ?_⟩, inside⟩
      · rw [stands, rest]
        rfl
      · rw [isMax, isWindow, Nat.max_assoc]
        rfl
    · refine Raise.Spec.pure fun reads inside => ⟨⟨[], ?_, (Nat.max_zero _).symm⟩, inside⟩
      exact List.drop_eq_nil_of_le (by omega)

end Sound

/-! ### Where the grammar holds -/

section Complete

variable {body rest : Bytes} {library : ZstdHeaders} {IsHeader : Bytes → FrameParameters → Prop}

/-- A check that returns this value. -/
def Gives {α : Type} (check : ZstdCheck α) (value : α) : Prop :=
  Raise.Spec (fun _ => True) check (fun result _ => result = value) fun _ _ => False

theorem Gives.eq {α : Type} {check : ZstdCheck α} {value : α} (gives : Gives check value)
    (reads : List ByteRange) : (check reads).1 = .ok value := by
  have here := gives reads trivial
  rcases outcome : check reads with ⟨_ | result, after⟩ <;> rw [outcome] at here
  · exact here.elim
  · exact congrArg Except.ok here

theorem Gives.pure {α : Type} (value : α) : Gives (Pure.pure value) value :=
  Raise.Spec.pure fun _ _ => rfl

theorem Gives.bind {α β : Type} {check : ZstdCheck α} {next : α → ZstdCheck β} {value : α}
    {result : β} (first : Gives check value) (later : Gives (next value) result) :
    Gives (check >>= next) result :=
  Raise.Spec.bind _ first fun _ => by
    rintro reads rfl
    exact later reads trivial

theorem view_front {front : Bytes} {start stop : ℕ} (stands : body.drop start = front ++ rest)
    (length : stop = start + front.length) : Gives (view body start stop) front := by
  refine Raise.Spec.update fun _ _ => ?_
  dsimp only
  rw [length, Nat.add_sub_cancel_left, stands, List.take_left]

theorem drop_front {front : Bytes} {start : ℕ} (stands : body.drop start = front ++ rest) :
    body.drop (start + front.length) = rest := by
  rw [← List.drop_drop, stands, List.drop_left]

theorem length_front {front : Bytes} {start : ℕ} (stands : body.drop start = front ++ rest) :
    body.length - start = front.length + rest.length := by
  rw [← List.length_drop, stands, List.length_append]

theorem encode_length (block : Block) :
    block.encode.length = 3 + block.type.payloadLength block.size := by
  rw [Block.encode, List.length_append, block.head_length, block.payload_length]

/-- **The loop passes a block** that stands at the cursor. -/
theorem blockLoop_block {fuel cursor after : ℕ} (block : Block)
    (stands : body.drop cursor = block.encode ++ rest)
    (final : block.last = true → cursor + block.encode.length = after)
    (later : block.last = false →
      Gives (blockLoop body fuel (cursor + block.encode.length)) after) :
    Gives (blockLoop body (fuel + 1) cursor) after := by
  have parts : body.drop cursor = block.head ++ (block.payload ++ rest) := by
    rw [stands, Block.encode, List.append_assoc]
  have room := length_front stands
  have length := encode_length block
  obtain ⟨lastBit, typeBits, sizeBits⟩ := blockHeader_bits (little block.head)
  obtain ⟨isLast, isType, isSize⟩ := block.fields
  rw [isLast] at lastBit
  rw [isType] at typeBits
  rw [isSize] at sizeBits
  have known := block.type.code_lt
  have size := BlockType.payloadLength_ofCode block.size block.type.code
  rw [BlockType.ofCode_code] at size
  refine Raise.Spec.ite (fun short => absurd short (by omega)) fun _ => ?_
  refine Gives.bind (view_front parts (by rw [block.head_length])) ?_
  simp only [typeBits, sizeBits, ← size]
  refine Raise.Spec.ite (fun reserved => absurd reserved (by omega)) fun _ => ?_
  refine Raise.Spec.ite (fun short => absurd short (by omega)) fun _ => ?_
  rw [Nat.add_assoc, ← length]
  refine Raise.Spec.ite (fun last => ?_) fun more => ?_
  · rw [← final (lastBit.mp last)]
    exact Gives.pure _
  · exact later (Bool.eq_false_iff.mpr (lastBit.not.mp more))

/-- **The loop returns behind blocks** that stand at the cursor. -/
theorem blockLoop_complete {fuel cursor : ℕ} (blocks : Blocks)
    (stands : body.drop cursor = blocks.encode ++ rest) (enough : body.length - cursor < fuel) :
    Gives (blockLoop body fuel cursor) (cursor + blocks.encode.length) := by
  induction blocks using Blocks.induct generalizing fuel cursor with
  | single block last =>
    obtain ⟨fuel, rfl⟩ := Nat.exists_eq_succ_of_ne_zero (Nat.ne_zero_of_lt enough)
    exact blockLoop_block block stands (fun _ => rfl)
      fun more => absurd last (Bool.eq_false_iff.mp more)
  | cons block more blocks ih =>
    obtain ⟨fuel, rfl⟩ := Nat.exists_eq_succ_of_ne_zero (Nat.ne_zero_of_lt enough)
    rw [Blocks.encode_cons, List.append_assoc] at stands
    have length := encode_length block
    have room := length_front stands
    refine blockLoop_block block stands
      (fun last => absurd last (Bool.eq_false_iff.mp more)) fun _ => ?_
    rw [Blocks.encode_cons, List.length_append, ← Nat.add_assoc]
    exact ih (drop_front stands) (by omega)

/-- **A pass goes behind a frame** that stands at the offset. -/
theorem frameStep_complete (describe : library.Describe IsHeader) {offset : ℕ}
    (frame : Zstd.Frame IsHeader) (stands : body.drop offset = frame.encode ++ rest)
    (maxWindowSize : ℕ) :
    Gives (frameStep library body offset maxWindowSize)
      (offset + frame.encode.length, max maxWindowSize frame.window) := by
  have room := length_front stands
  cases frame with
  | skippable frame =>
    have length :
        (Zstd.Frame.skippable frame : Zstd.Frame IsHeader).encode.length = 8 + little frame.size := by
      show (frame.magic ++ frame.size ++ frame.payload).length = _
      rw [List.length_append, List.length_append, frame.magic_length, frame.size_length,
        frame.payload_length]
    have front : body.drop offset = frame.magic ++ (frame.size ++ (frame.payload ++ rest)) := by
      rw [stands, Zstd.Frame.encode, SkippableFrame.encode, List.append_assoc, List.append_assoc]
    have behind := drop_front front
    rw [frame.magic_length] at behind
    refine Raise.Spec.ite (fun short => absurd short (by omega)) fun _ => ?_
    refine Gives.bind (view_front front (by rw [frame.magic_length])) ?_
    refine Raise.Spec.ite (fun _ => ?_) fun other => absurd frame.magic_range other
    refine Raise.Spec.ite (fun short => absurd short (by omega)) fun _ => ?_
    refine Gives.bind (view_front behind (by rw [frame.size_length])) ?_
    refine Raise.Spec.ite (fun short => absurd short (by omega)) fun _ => ?_
    rw [length, ← Nat.add_assoc,
      show Zstd.Frame.window (.skippable frame : Zstd.Frame IsHeader) = 0 from rfl,
      Nat.max_zero]
    exact Gives.pure _
  | standard frame =>
    have five := describe.five_le frame.isHeader
    have front :
        body.drop offset = frame.header ++ (frame.blocks.encode ++ (frame.checksum ++ rest)) := by
      rw [stands, Zstd.Frame.encode, StandardFrame.encode, List.append_assoc, List.append_assoc]
    have length : (Zstd.Frame.standard frame).encode.length =
        frame.header.length + frame.blocks.encode.length + frame.checksum.length := by
      show (frame.header ++ frame.blocks.encode ++ frame.checksum).length = _
      rw [List.length_append, List.length_append]
    have magicFront : body.drop offset = frame.header.take 4 ++ (frame.header.drop 4 ++
        (frame.blocks.encode ++ (frame.checksum ++ rest))) := by
      rw [front, ← List.append_assoc (frame.header.take 4), List.take_append_drop]
    have magicLength : (frame.header.take 4).length = 4 := by
      rw [List.length_take]
      omega
    have whole : Gives (view body offset body.length)
        (frame.header ++ (frame.blocks.encode ++ (frame.checksum ++ rest))) := by
      have alone : body.drop offset =
          (frame.header ++ (frame.blocks.encode ++ (frame.checksum ++ rest))) ++ [] := by
        rw [List.append_nil, front]
      refine view_front alone ?_
      rw [← front, List.length_drop]
      omega
    refine Raise.Spec.ite (fun short => absurd short (by omega)) fun _ => ?_
    refine Gives.bind (view_front magicFront (by rw [magicLength])) ?_
    rw [frame.header_magic]
    refine Raise.Spec.ite (fun skippable => absurd skippable (by decide)) fun _ => ?_
    refine Raise.Spec.ite (fun other => absurd rfl other) fun _ => ?_
    refine Gives.bind whole ?_
    rw [describe.size frame.isHeader]
    refine Gives.bind (Gives.pure _) (Gives.bind whole ?_)
    rw [describe.parameters frame.isHeader]
    refine Gives.bind (Gives.pure _) ?_
    have behind := drop_front (drop_front front)
    refine Gives.bind (blockLoop_complete frame.blocks (drop_front front) (by omega)) ?_
    have checksum := frame.checksum_length
    by_cases hasChecksum : frame.parameters.hasChecksum = true
    · rw [if_pos hasChecksum] at checksum
      rw [length, checksum, ← Nat.add_assoc, ← Nat.add_assoc]
      refine Raise.Spec.ite (fun _ => ?_) fun missing => absurd hasChecksum missing
      refine Raise.Spec.ite (fun short => absurd short (by omega)) fun _ => ?_
      exact Gives.pure _
    · rw [if_neg hasChecksum] at checksum
      rw [length, checksum, ← Nat.add_assoc, ← Nat.add_assoc]
      refine Raise.Spec.ite (fun given => absurd given hasChecksum) fun _ => ?_
      exact Gives.pure _

theorem encode_pos (describe : library.Describe IsHeader) (frame : Zstd.Frame IsHeader) :
    0 < frame.encode.length := by
  cases frame with
  | skippable frame =>
    show 0 < (frame.magic ++ frame.size ++ frame.payload).length
    rw [List.length_append, List.length_append, frame.magic_length]
    omega
  | standard frame =>
    have five := describe.five_le frame.isHeader
    show 0 < (frame.header ++ frame.blocks.encode ++ frame.checksum).length
    rw [List.length_append, List.length_append]
    omega

/-- **The loop returns the largest window** of frames that stand to the end. -/
theorem frameLoop_complete (describe : library.Describe IsHeader) {fuel offset : ℕ}
    (frames : List (Zstd.Frame IsHeader)) (stands : body.drop offset = encodeFrames frames)
    (enough : body.length - offset < fuel) (maxWindowSize : ℕ) :
    Gives (frameLoop library body fuel offset maxWindowSize)
      (max maxWindowSize (maxWindow frames)) := by
  induction frames generalizing fuel offset maxWindowSize with
  | nil =>
    obtain ⟨fuel, rfl⟩ := Nat.exists_eq_succ_of_ne_zero (Nat.ne_zero_of_lt enough)
    have atEnd := congrArg List.length stands
    rw [List.length_drop] at atEnd
    refine Raise.Spec.ite (fun inBody => absurd atEnd (Nat.sub_ne_zero_of_lt inBody)) fun _ => ?_
    rw [show maxWindow ([] : List (Zstd.Frame IsHeader)) = 0 from rfl, Nat.max_zero]
    exact Gives.pure _
  | cons frame frames ih =>
    obtain ⟨fuel, rfl⟩ := Nat.exists_eq_succ_of_ne_zero (Nat.ne_zero_of_lt enough)
    have front : body.drop offset = frame.encode ++ encodeFrames frames := stands
    have room := length_front front
    have progress := encode_pos describe frame
    refine Raise.Spec.ite (fun _ => ?_) fun outside => absurd outside (by omega)
    refine Gives.bind (frameStep_complete describe frame front maxWindowSize) ?_
    have later := @ih fuel _ (drop_front front) (by omega) (max maxWindowSize frame.window)
    rw [Nat.max_assoc] at later
    exact later

end Complete

/-- **The structure check accepts exactly the frame grammar**: it ends with a window or with an
error of its own, it accepts frames one after the other and nothing else and gives their largest
window, and every read is inside the body. -/
theorem ensureCompleteZstdFrames_iff (library : ZstdHeaders)
    (IsHeader : Bytes → FrameParameters → Prop)
    (describe : library.Describe IsHeader) (body : Bytes) :
    let check := ensureCompleteZstdFrames library body []
    ((∃ window, check.1 = .ok window) ∨ ∃ message, check.1 = .error (.zstdError message)) ∧
      (∀ window, check.1 = .ok window ↔
        ∃ frames : List (Zstd.Frame IsHeader),
          body = encodeFrames frames ∧ window = maxWindow frames) ∧
      ∀ read ∈ check.2, read.1 ≤ read.2 ∧ read.2 ≤ body.length := by
  intro check
  have sound := @frameLoop_sound body _ _ describe (body.length + 1) 0 0 (by omega) [] nofun
  have complete (frames : List (Zstd.Frame IsHeader)) (stand : body = encodeFrames frames) :
      check.1 = .ok (max 0 (maxWindow frames)) :=
    (@frameLoop_complete body _ _ describe (body.length + 1) 0 frames stand (by omega) 0).eq []
  have isCheck : frameLoop library body (body.length + 1) 0 0 [] = check := rfl
  rw [isCheck] at sound
  rcases outcome : check with ⟨fault | window, reads⟩ <;> rw [outcome] at sound complete
  · obtain ⟨notUnfinished, inside⟩ := sound
    refine ⟨.inr ?_, fun window => ⟨nofun, ?_⟩, inside⟩
    · cases fault with
      | zstdError message => exact ⟨message, rfl⟩
      | unfinished => exact absurd rfl notUnfinished
    · rintro ⟨frames, stand, -⟩
      cases complete frames stand
  · obtain ⟨⟨frames, stand, isWindow⟩, inside⟩ := sound
    rw [Nat.zero_max] at isWindow
    refine ⟨.inl ⟨window, rfl⟩, fun other => ⟨fun same => ?_, ?_⟩, inside⟩
    · cases same
      exact ⟨frames, stand, isWindow⟩
    · rintro ⟨others, stand, rfl⟩
      rw [← Nat.zero_max (maxWindow others)]
      exact complete others stand

/-- The size is read from the descriptor alone, the parameters from a complete header. -/
def standardHeaders : ZstdHeaders where
  frameHeaderSize := headerSize
  getFrameParameters data := (headerAt data).map Prod.snd

theorem standardHeaders_describe : standardHeaders.Describe IsStandardHeader where
  size isHeader rest := headerSize_append isHeader.1 rest
  parameters isHeader rest := by
    show (headerAt _).map Prod.snd = _
    rw [headerAt_append isHeader]
    rfl
  fails data absent := by
    refine .inr (Option.map_eq_none_iff.mpr (Option.eq_none_iff_forall_ne_some.mpr ?_))
    rintro ⟨size, parameters⟩ found
    obtain ⟨whole, isHeader⟩ := headerAt_eq_some found
    exact absent _ _ _ whole isHeader
  five_le isHeader := five_le_of_headerSize isHeader.1

/-- A skippable frame, and a standard one with a raw block, an RLE block and a checksum. -/
theorem ensureCompleteZstdFrames_iff_pair :
    ∃ frames : List (Zstd.Frame IsStandardHeader),
      [0x50, 0x2A, 0x4D, 0x18, 2, 0, 0, 0, 0xAA, 0xBB, 0x28, 0xB5, 0x2F, 0xFD, 0x04, 0x00,
        0x18, 0, 0, 0x61, 0x62, 0x63, 0x2B, 0, 0, 0x7A, 1, 2, 3, 4] = encodeFrames frames ∧
      1024 = maxWindow frames :=
  ((ensureCompleteZstdFrames_iff standardHeaders IsStandardHeader standardHeaders_describe
    [0x50, 0x2A, 0x4D, 0x18, 2, 0, 0, 0, 0xAA, 0xBB, 0x28, 0xB5, 0x2F, 0xFD, 0x04, 0x00,
      0x18, 0, 0, 0x61, 0x62, 0x63, 0x2B, 0, 0, 0x7A, 1, 2, 3, 4]).2.1 1024).mp (by decide +kernel)

end UniApi.Middleware
