/-
**`SseDecoder`: the framing of the Rust front.**

The decoder collects bytes, searches them for `\n\n`, `\r\r` and `\r\n\r\n`, and gives a frame for each
block that is not blank. The next search resumes three bytes before the old end of the buffer.

* `findEventDelimiterFrom_resume`: resuming there finds what a search from the start finds;
* `SseDecoder.feed_spec`: a feed cuts the buffer and the chunk at their delimiters, and what it keeps is
  the rest;
* `decoder_lossless`: the frames do not depend on the chunks, and blocks and rest are the stream.
-/

import UniApi.Lib.Cutting
import UniApi.Lib.Raise
import UniApi.Lib.Utf8

namespace UniApi.Front

open UniApi.Lib

/-! ### Bytes and errors -/

/-- `b'\r'`. -/
abbrev cr : UInt8 := 13

/-- `b'\n'`. -/
abbrev lf : UInt8 := 10

/-- `u8::is_ascii_whitespace`: space, tab, LF, form feed and CR. -/
def isAsciiWhitespace (byte : UInt8) : Bool :=
  byte == 32 || byte == 9 || byte == 10 || byte == 12 || byte == 13

/-- What is wrong with an upstream stream: the `Err(String)` of the front. -/
inductive ProtocolError where
  /-- A fixed text. -/
  | text (message : String)
  /-- A text followed by what `serde_json` says. -/
  | json (message : String)
  /-- `"Responses event field {declared:?} does not match payload type {event_type:?}"`. -/
  | eventMismatch (declared eventType : Bytes)
  /-- `"Responses upstream {event_type} payload ..."`. -/
  | payload (eventType : Bytes) (problem : String)
  deriving DecidableEq

/-! ### Frames -/

structure SseFrame where
  wire : Bytes
  rawLen : Nat
  terminated : Bool
  deriving DecidableEq

namespace SseFrame

/-- `raw`: the frame without its delimiter. -/
def raw (frame : SseFrame) : Bytes := frame.wire.take frame.rawLen

/-- `canonical_wire`. -/
def canonicalWire (frame : SseFrame) : Bytes :=
  if frame.terminated then frame.wire else frame.wire ++ [lf, lf]

end SseFrame

/-! ### Delimiters -/

/-- The length of the delimiter the bytes start with. -/
def delimiterAt (bytes : Bytes) : Option Nat :=
  if [cr, lf, cr, lf].isPrefixOf bytes then some 4
  else if [lf, lf].isPrefixOf bytes || [cr, cr].isPrefixOf bytes then some 2
  else none

/-- The loop of `find_event_delimiter_from` over the bytes from `index` on. -/
def scanDelimiter (index : Nat) : Bytes → Option (Nat × Nat)
  | [] => none
  | byte :: rest =>
    -- `memchr2` skips to the next CR or LF
    if byte ≠ cr ∧ byte ≠ lf then scanDelimiter (index + 1) rest
    else
      match delimiterAt (byte :: rest) with
      | some length => some (index, length)
      | none => scanDelimiter (index + 1) rest

/-- `find_event_delimiter_from`. -/
def findEventDelimiterFrom (bytes : Bytes) (start : Nat) : Option (Nat × Nat) :=
  scanDelimiter (min start bytes.length) (bytes.drop (min start bytes.length))

/-! ### The decoder -/

/-- `UNLIMITED_SSE_EVENT_BYTES`. -/
def unlimitedSseEventBytes : Nat := 0

structure SseDecoder where
  buffer : Bytes
  scanFrom : Nat
  maxEventBytes : Nat
  deriving DecidableEq

namespace SseDecoder

/-- `new`. -/
def new (maxEventBytes : Nat) : SseDecoder := { buffer := [], scanFrom := 0, maxEventBytes }

/-- `exceeds_event_limit`. -/
def exceedsEventLimit (decoder : SseDecoder) (observedBytes : Nat) : Bool :=
  decoder.maxEventBytes ≠ unlimitedSseEventBytes && decoder.maxEventBytes < observedBytes

/-- A call of the decoder. -/
abbrev Run := Raise ProtocolError SseDecoder

/-- The loop of `feed`. Each round takes bytes from the buffer, so its length bounds the rounds. -/
def feedLoop : Nat → List SseFrame → Run (List SseFrame)
  | 0, frames => pure frames
  | fuel + 1, frames => do
    let decoder ← Raise.get
    match findEventDelimiterFrom decoder.buffer decoder.scanFrom with
    | none => pure frames
    | some (stop, delimiterLen) =>
      if decoder.exceedsEventLimit stop then
        Raise.throw (.text "Responses upstream SSE event exceeds the configured limit")
      else
        let wire := decoder.buffer.take (stop + delimiterLen)
        Raise.modify fun decoder =>
          { decoder with buffer := decoder.buffer.drop (stop + delimiterLen), scanFrom := 0 }
        if (wire.take stop).all isAsciiWhitespace then feedLoop fuel frames
        else feedLoop fuel (frames ++ [{ wire, rawLen := stop, terminated := true }])

/-- `feed`. -/
def feed (chunk : Bytes) : Run (List SseFrame) := do
  Raise.modify fun decoder => { decoder with buffer := decoder.buffer ++ chunk }
  let decoder ← Raise.get
  let frames ← feedLoop decoder.buffer.length []
  Raise.modify fun decoder => { decoder with scanFrom := decoder.buffer.length - 3 }
  let decoder ← Raise.get
  if decoder.maxEventBytes ≠ unlimitedSseEventBytes ∧
      decoder.maxEventBytes + 64 * 1024 < decoder.buffer.length then
    Raise.throw (.text "Responses upstream SSE pending frame exceeds the configured limit")
  else pure frames

/-- `finish`. -/
def finish : Run (List SseFrame) := do
  let frames ← feed []
  let decoder ← Raise.get
  let cleared := Raise.modify fun decoder => { decoder with buffer := [], scanFrom := 0 }
  if decoder.buffer.all isAsciiWhitespace then do
    cleared
    pure frames
  else if decoder.exceedsEventLimit decoder.buffer.length then
    Raise.throw (.text "Responses upstream SSE event exceeds the configured limit")
  else do
    cleared
    pure (frames ++
      [{ wire := decoder.buffer, rawLen := decoder.buffer.length, terminated := false }])

/-- `pending_copy`. -/
def pendingCopy (decoder : SseDecoder) : Option Bytes :=
  if decoder.buffer.isEmpty then none else some decoder.buffer

end SseDecoder

/-! ### The first delimiter -/

/-- The delimiters. -/
def delimiters : List Bytes := [[cr, lf, cr, lf], [lf, lf], [cr, cr]]

variable {bytes : Bytes} {decoder : SseDecoder}

/-- **The delimiter at a place** is the one the bytes start with. -/
theorem delimiterAt_eq_some_iff {length : Nat} :
    delimiterAt bytes = some length ↔
      ∃ delimiter ∈ delimiters, delimiter.length = length ∧ delimiter <+: bytes := by
  constructor
  · intro found
    unfold delimiterAt at found
    split at found
    · rename_i long
      cases found
      exact ⟨_, by simp [delimiters], rfl, List.isPrefixOf_iff_prefix.mp long⟩
    split at found
    · rename_i short
      cases found
      rcases Bool.or_eq_true_iff.mp short with feeds | returns
      · exact ⟨_, by simp [delimiters], rfl, List.isPrefixOf_iff_prefix.mp feeds⟩
      · exact ⟨_, by simp [delimiters], rfl, List.isPrefixOf_iff_prefix.mp returns⟩
    · cases found
  · rintro ⟨delimiter, member, rfl, rest, rfl⟩
    simp only [delimiters, List.mem_cons, List.not_mem_nil, or_false] at member
    rcases member with rfl | rfl | rfl
    · rfl
    · simp [delimiterAt, List.isPrefixOf, cr, lf]
    · simp [delimiterAt, List.isPrefixOf, cr, lf]

theorem delimiterAt_nil : delimiterAt [] = none := rfl

theorem delimiterAt_of_other {byte : UInt8} (rest : Bytes) (other : byte ≠ cr ∧ byte ≠ lf) :
    delimiterAt (byte :: rest) = none := by
  simp [delimiterAt, List.isPrefixOf, Ne.symm other.1, Ne.symm other.2]

theorem delimiterAt_length {length : Nat} (found : delimiterAt bytes = some length) :
    0 < length ∧ length ≤ 4 ∧ length ≤ bytes.length := by
  obtain ⟨delimiter, member, rfl, starts⟩ := delimiterAt_eq_some_iff.mp found
  have sizes : ∀ delimiter ∈ delimiters, 0 < delimiter.length ∧ delimiter.length ≤ 4 := by decide
  exact ⟨(sizes delimiter member).1, (sizes delimiter member).2, starts.length_le⟩

theorem delimiterAt_append {length : Nat} (more : Bytes)
    (found : delimiterAt bytes = some length) : delimiterAt (bytes ++ more) = some length := by
  obtain ⟨delimiter, member, same, starts⟩ := delimiterAt_eq_some_iff.mp found
  exact delimiterAt_eq_some_iff.mpr ⟨delimiter, member, same, starts.trans (List.prefix_append _ _)⟩

/-- A delimiter that does not reach into what follows is there without it. -/
theorem delimiterAt_of_append {bytes more : Bytes} {length : Nat}
    (found : delimiterAt (bytes ++ more) = some length) (fits : length ≤ bytes.length) :
    delimiterAt bytes = some length := by
  obtain ⟨delimiter, member, same, starts⟩ := delimiterAt_eq_some_iff.mp found
  exact delimiterAt_eq_some_iff.mpr ⟨delimiter, member, same,
    List.prefix_of_prefix_length_le starts (List.prefix_append _ _) (same ▸ fits)⟩

theorem scanDelimiter_cons (index : Nat) (byte : UInt8) (rest : Bytes) :
    scanDelimiter index (byte :: rest) =
      match delimiterAt (byte :: rest) with
      | some length => some (index, length)
      | none => scanDelimiter (index + 1) rest := by
  conv => lhs; unfold scanDelimiter
  split
  · rename_i other
    rw [delimiterAt_of_other rest other]
  · rfl

theorem scanDelimiter_eq_none_iff {index : Nat} :
    scanDelimiter index bytes = none ↔ ∀ place, delimiterAt (bytes.drop place) = none := by
  induction bytes generalizing index with
  | nil => simp [scanDelimiter, delimiterAt_nil]
  | cons byte rest ih =>
    rw [scanDelimiter_cons]
    constructor
    · intro nothing place
      cases here : delimiterAt (byte :: rest) with
      | some length => simp [here] at nothing
      | none =>
        cases place with
        | zero => exact here
        | succ place =>
          simp only [here] at nothing
          exact ih.mp nothing place
    · intro nothing
      have here := nothing 0
      rw [List.drop_zero] at here
      simp only [here]
      exact ih.mpr fun place => nothing (place + 1)

/-- **A search finds the first delimiter.** -/
theorem scanDelimiter_eq_some_iff {index place length : Nat} :
    scanDelimiter index bytes = some (place, length) ↔
      ∃ offset, place = index + offset ∧ delimiterAt (bytes.drop offset) = some length ∧
        ∀ before < offset, delimiterAt (bytes.drop before) = none := by
  induction bytes generalizing index with
  | nil => simp [scanDelimiter, delimiterAt_nil]
  | cons byte rest ih =>
    rw [scanDelimiter_cons]
    cases here : delimiterAt (byte :: rest) with
    | some found =>
      simp only [Option.some.injEq, Prod.mk.injEq]
      constructor
      · rintro ⟨rfl, rfl⟩
        exact ⟨0, rfl, here, fun _ before => absurd before (Nat.not_lt_zero _)⟩
      · rintro ⟨offset, rfl, there, first⟩
        cases offset with
        | zero => exact ⟨rfl, Option.some.inj (here.symm.trans there)⟩
        | succ offset => exact absurd (here.symm.trans (first 0 (Nat.succ_pos _))) nofun
    | none =>
      simp only
      rw [ih]
      constructor
      · rintro ⟨offset, rfl, there, first⟩
        refine ⟨offset + 1, by omega, there, fun before earlier => ?_⟩
        cases before with
        | zero => exact here
        | succ before => exact first before (by omega)
      · rintro ⟨offset, rfl, there, first⟩
        cases offset with
        | zero => exact absurd (here.symm.trans there) nofun
        | succ offset =>
          exact ⟨offset, by omega, there, fun before earlier => first (before + 1) (by omega)⟩

/-- **A search from `start` finds the first delimiter from there on.** -/
theorem findEventDelimiterFrom_eq_some_iff {start place length : Nat} :
    findEventDelimiterFrom bytes start = some (place, length) ↔
      start ≤ place ∧ delimiterAt (bytes.drop place) = some length ∧
        ∀ before, start ≤ before → before < place → delimiterAt (bytes.drop before) = none := by
  unfold findEventDelimiterFrom
  rw [scanDelimiter_eq_some_iff]
  simp only [List.drop_drop]
  rcases Nat.le_total start bytes.length with inside | outside
  · rw [Nat.min_eq_left inside]
    constructor
    · rintro ⟨offset, rfl, here, first⟩
      refine ⟨Nat.le_add_right _ _, here, fun before after earlier => ?_⟩
      have none := first (before - start) (by omega)
      rwa [Nat.add_sub_cancel' after] at none
    · rintro ⟨after, here, first⟩
      refine ⟨place - start, by omega, ?_, fun before earlier => first _ (by omega) (by omega)⟩
      rwa [Nat.add_sub_cancel' after]
  · rw [Nat.min_eq_right outside]
    have past : ∀ offset, bytes.length ≤ offset → delimiterAt (bytes.drop offset) = none := by
      intro offset beyond
      rw [List.drop_eq_nil_of_le beyond]
      rfl
    constructor
    · rintro ⟨offset, rfl, here, first⟩
      exact absurd ((past _ (Nat.le_add_right _ _)).symm.trans here) nofun
    · rintro ⟨after, here, first⟩
      exact absurd ((past _ (by omega)).symm.trans here) nofun

theorem findEventDelimiterFrom_eq_none_iff :
    findEventDelimiterFrom bytes 0 = none ↔ ∀ place, delimiterAt (bytes.drop place) = none := by
  unfold findEventDelimiterFrom
  rw [scanDelimiter_eq_none_iff]
  simp

theorem findEventDelimiterFrom_skip {start : Nat}
    (passed : ∀ place < start, delimiterAt (bytes.drop place) = none) :
    findEventDelimiterFrom bytes start = findEventDelimiterFrom bytes 0 := by
  refine Option.ext fun (place, length) => ?_
  rw [findEventDelimiterFrom_eq_some_iff, findEventDelimiterFrom_eq_some_iff]
  constructor
  · rintro ⟨after, here, first⟩
    refine ⟨Nat.zero_le _, here, fun before _ earlier => ?_⟩
    rcases Nat.lt_or_ge before start with skipped | later
    · exact passed before skipped
    · exact first before later earlier
  · rintro ⟨_, here, first⟩
    refine ⟨?_, here, fun before _ earlier => first before (Nat.zero_le _) earlier⟩
    by_contra early
    exact absurd ((passed place (by omega)).symm.trans here) nofun

/-- **Resuming three bytes before the end** of bytes without a delimiter finds what a search from the
start finds. -/
theorem findEventDelimiterFrom_resume (more : Bytes)
    (nothing : findEventDelimiterFrom bytes 0 = none) :
    findEventDelimiterFrom (bytes ++ more) (bytes.length - 3) =
      findEventDelimiterFrom (bytes ++ more) 0 := by
  refine findEventDelimiterFrom_skip fun place before => ?_
  cases found : delimiterAt ((bytes ++ more).drop place) with
  | none => rfl
  | some length =>
    rw [List.drop_append_of_le_length (by omega)] at found
    have bounds := delimiterAt_length found
    have here := delimiterAt_of_append found (by rw [List.length_drop]; omega)
    exact absurd ((findEventDelimiterFrom_eq_none_iff.mp nothing place).symm.trans here) nofun

theorem no_delimiter_inside {delimiter : Bytes} (member : delimiter ∈ delimiters)
    (cutOff : bytes <+: delimiter) (shorter : bytes.length < delimiter.length) (offset : Nat)
    (later : 0 < offset) : delimiterAt (bytes.drop offset) = none := by
  have each : ∀ delimiter ∈ delimiters, ∀ size < delimiter.length, ∀ offset < 5, 0 < offset →
      delimiterAt ((delimiter.take size).drop offset) = none := by decide
  rw [List.prefix_iff_eq_take.mp cutOff]
  rcases Nat.lt_or_ge offset 5 with inside | outside
  · exact each delimiter member bytes.length shorter offset inside later
  · have bounds := delimiterAt_length (delimiterAt_eq_some_iff.mpr
      ⟨delimiter, member, rfl, List.prefix_refl _⟩)
    rw [List.drop_eq_nil_of_le (by rw [List.length_take]; omega)]
    rfl

/-- **What has been found is found when more follows.** -/
theorem findEventDelimiterFrom_append {found : Nat × Nat} (more : Bytes)
    (here : findEventDelimiterFrom bytes 0 = some found) :
    findEventDelimiterFrom (bytes ++ more) 0 = some found := by
  obtain ⟨place, length⟩ := found
  rw [findEventDelimiterFrom_eq_some_iff] at here ⊢
  obtain ⟨-, here, first⟩ := here
  have bounds := delimiterAt_length here
  rw [List.length_drop] at bounds
  refine ⟨Nat.zero_le _, ?_, fun before _ earlier => ?_⟩
  · rw [List.drop_append_of_le_length (by omega)]
    exact delimiterAt_append more here
  · rw [List.drop_append_of_le_length (by omega)]
    have free := first before (Nat.zero_le _) earlier
    cases early : delimiterAt (bytes.drop before ++ more) with
    | none => rfl
    | some other =>
      -- an earlier delimiter would reach into `more`, so the one found would stand inside it
      obtain ⟨delimiter, member, same, starts⟩ := delimiterAt_eq_some_iff.mp early
      have reaches : (bytes.drop before).length < delimiter.length := by
        by_contra fits
        exact absurd (free.symm.trans (delimiterAt_of_append early (by omega))) nofun
      have cutOff := List.prefix_of_prefix_length_le (List.prefix_append _ _) starts (Nat.le_of_lt reaches)
      have inside := no_delimiter_inside member cutOff reaches (place - before) (by omega)
      rw [List.drop_drop, Nat.add_sub_cancel' (Nat.le_of_lt earlier)] at inside
      exact absurd (inside.symm.trans here) nofun

/-- The delimiters of the front as a finder. -/
def eventDelimiter : Finder UInt8 where
  find bytes := findEventDelimiterFrom bytes 0
  bounded {bytes place length} found := by
    obtain ⟨-, here, -⟩ := findEventDelimiterFrom_eq_some_iff.mp found
    have bounds := delimiterAt_length here
    rw [List.length_drop] at bounds
    omega
  stable more found := findEventDelimiterFrom_append more found

theorem cut_delimiters (bytes : Bytes) :
    ∀ block ∈ (eventDelimiter.cut bytes).1, block.delimiter ∈ delimiters := by
  refine eventDelimiter.cut_blocks (fun input start length found => ?_) bytes
  obtain ⟨-, here, -⟩ := findEventDelimiterFrom_eq_some_iff.mp found
  obtain ⟨delimiter, member, rfl, starts⟩ := delimiterAt_eq_some_iff.mp here
  rw [Finder.block, ← List.prefix_iff_eq_take.mp starts]
  exact member

/-! ### What the decoder gives -/

/-- The frame of a block, unless it is blank. -/
def blockFrame (block : Block UInt8) : Option SseFrame :=
  if block.body.all isAsciiWhitespace then none
  else some { wire := block.wire, rawLen := block.body.length, terminated := true }

/-- The frames of blocks. -/
def blockFrames (blocks : List (Block UInt8)) : List SseFrame := blocks.filterMap blockFrame

/-- The frame of bytes no delimiter follows, unless they are blank. -/
def lastFrame (rest : Bytes) : List SseFrame :=
  if rest.all isAsciiWhitespace then []
  else [{ wire := rest, rawLen := rest.length, terminated := false }]

namespace SseDecoder

/-- **Between calls** the buffer holds no delimiter, and the search resumes three bytes before its
end. -/
structure Resting (decoder : SseDecoder) : Prop where
  undelimited : findEventDelimiterFrom decoder.buffer 0 = none
  resumes : decoder.scanFrom = decoder.buffer.length - 3

theorem resting_new (maxEventBytes : Nat) : (new maxEventBytes).Resting := ⟨rfl, rfl⟩

/-- The decoder that keeps the rest of a cut. -/
def keeping (decoder : SseDecoder) (bytes : Bytes) : SseDecoder :=
  { decoder with
    buffer := (eventDelimiter.cut bytes).2, scanFrom := (eventDelimiter.cut bytes).2.length - 3 }

theorem resting_keeping (decoder : SseDecoder) (bytes : Bytes) : (decoder.keeping bytes).Resting :=
  ⟨eventDelimiter.find_cut bytes, rfl⟩

theorem keeping_buffer (decoder : SseDecoder) (bytes : Bytes) :
    (decoder.keeping bytes).buffer = (eventDelimiter.cut bytes).2 := rfl

theorem keeping_keeping (decoder : SseDecoder) (bytes more : Bytes) :
    (decoder.keeping bytes).keeping ((eventDelimiter.cut bytes).2 ++ more) =
      decoder.keeping (bytes ++ more) := by
  simp only [keeping, eventDelimiter.cut_append bytes more]

theorem pendingCopy_getD (decoder : SseDecoder) : decoder.pendingCopy.getD [] = decoder.buffer := by
  unfold pendingCopy
  split
  · rename_i empty
    exact (List.isEmpty_iff.mp empty).symm
  · rfl

/-- The event limit is on: without it nothing raises. -/
def Limited (decoder : SseDecoder) : Prop := decoder.maxEventBytes ≠ unlimitedSseEventBytes

/-- **The loop of `feed`** cuts the buffer, if the first search finds what one from the start finds. -/
theorem feedLoop_spec (resumes : findEventDelimiterFrom decoder.buffer
      decoder.scanFrom = findEventDelimiterFrom decoder.buffer 0)
    {fuel : Nat} (enough : decoder.buffer.length ≤ fuel) (frames : List SseFrame) :
    Raise.Spec (fun state => state = decoder) (feedLoop fuel frames)
      (fun found after => found = frames ++ blockFrames (eventDelimiter.cut decoder.buffer).1 ∧
        after.buffer = (eventDelimiter.cut decoder.buffer).2 ∧
        after.maxEventBytes = decoder.maxEventBytes)
      (fun _ _ => decoder.Limited) := by
  induction fuel generalizing decoder frames with
  | zero =>
    have empty : decoder.buffer = [] := List.eq_nil_of_length_eq_zero (Nat.le_zero.mp enough)
    refine Raise.Spec.pure ?_
    rintro _ rfl
    rw [empty]
    exact ⟨(List.append_nil _).symm, rfl, rfl⟩
  | succ fuel ih =>
    refine Raise.Spec.bind_get_at ?_
    cases found : findEventDelimiterFrom decoder.buffer decoder.scanFrom with
    | none =>
      have nothing := eventDelimiter.cut_of_none (resumes.symm.trans found)
      refine Raise.Spec.pure ?_
      rintro _ rfl
      rw [nothing]
      exact ⟨(List.append_nil _).symm, rfl, rfl⟩
    | some place =>
      obtain ⟨stop, length⟩ := place
      have cutHere := eventDelimiter.cut_of_some (resumes.symm.trans found)
      have bounds := eventDelimiter.bounded (resumes.symm.trans found)
      have body : (decoder.buffer.take (stop + length)).take stop = decoder.buffer.take stop := by
        rw [List.take_take, Nat.min_eq_left (Nat.le_add_right _ _)]
      have wire : decoder.buffer.take (stop + length) =
          (Finder.block decoder.buffer stop length).wire := List.take_add
      refine Raise.Spec.ite (fun exceeds => ?_) (fun _ => ?_)
      · refine Raise.Spec.throw ?_
        rintro _ rfl
        intro unlimited
        simp [exceedsEventLimit, unlimited] at exceeds
      · refine Raise.Spec.bind _ Raise.Spec.modify_at fun _ => ?_
        have left : (decoder.buffer.drop (stop + length)).length ≤ fuel := by
          rw [List.length_drop]
          omega
        rw [cutHere]
        refine Raise.Spec.ite (fun blank => ?_) (fun filled => ?_)
        · refine (ih rfl left frames).returning ?_
          rintro frames' after ⟨same, buffer, limit⟩
          rw [body] at blank
          refine ⟨?_, buffer, limit⟩
          simp only [same, blockFrames, List.filterMap_cons, blockFrame, Finder.block, blank,
            if_true]
        · refine (ih rfl left _).returning ?_
          rintro frames' after ⟨same, buffer, limit⟩
          rw [body] at filled
          refine ⟨?_, buffer, limit⟩
          have size : (decoder.buffer.take stop).length = stop := by
            rw [List.length_take]
            omega
          simp only [same, blockFrames, List.filterMap_cons, blockFrame, Finder.block, filled,
            Bool.false_eq_true, if_false, wire, size, List.append_assoc, List.singleton_append]

/-- **A feed** gives the frames of what the buffer and the chunk hold, and keeps the rest. -/
theorem feed_spec (resting : decoder.Resting) (chunk : Bytes) :
    Raise.Spec (fun state => state = decoder) (feed chunk)
      (fun frames after =>
        frames = blockFrames (eventDelimiter.cut (decoder.buffer ++ chunk)).1 ∧
        after = decoder.keeping (decoder.buffer ++ chunk))
      (fun _ _ => decoder.Limited) := by
  have resumes := findEventDelimiterFrom_resume chunk resting.undelimited
  rw [← resting.resumes] at resumes
  refine Raise.Spec.bind _ Raise.Spec.modify_at fun _ => Raise.Spec.bind_get_at ?_
  refine Raise.Spec.bind _ (feedLoop_spec resumes (Nat.le_refl _) []) fun frames => ?_
  refine Raise.Spec.bind (fun _ after =>
    frames = blockFrames (eventDelimiter.cut (decoder.buffer ++ chunk)).1 ∧
      after = decoder.keeping (decoder.buffer ++ chunk)) (Raise.Spec.modify ?_) fun _ => ?_
  · rintro after ⟨same, buffer, limit⟩
    refine ⟨same, ?_⟩
    rw [keeping, ← buffer, limit]
  refine Raise.Spec.bind_get ?_
  rintro _ ⟨same, rfl⟩
  refine Raise.Spec.ite (fun limited => ?_) (fun _ => ?_)
  · exact Raise.Spec.throw fun _ _ => limited.1
  · exact Raise.Spec.pure fun _ after => ⟨same, after⟩

/-- **At the end** what is left is a frame, unless it is blank. -/
theorem finish_spec (resting : decoder.Resting) :
    Raise.Spec (fun state => state = decoder) finish
      (fun frames after => frames = lastFrame decoder.buffer ∧
        after = { decoder with buffer := [], scanFrom := 0 })
      (fun _ _ => decoder.Limited) := by
  have nothing := eventDelimiter.cut_of_none resting.undelimited
  refine Raise.Spec.bind (fun frames after => frames = [] ∧ after = decoder) ?_ fun frames => ?_
  · refine (feed_spec resting []).returning ?_
    rintro frames after ⟨rfl, rfl⟩
    rw [keeping, List.append_nil, nothing, ← resting.resumes]
    exact ⟨rfl, rfl⟩
  refine Raise.Spec.given fun none => Raise.Spec.bind_get_at ?_
  refine Raise.Spec.ite (fun blank => ?_) fun filled => Raise.Spec.ite (fun exceeds => ?_) fun _ => ?_
  · refine Raise.Spec.bind _ Raise.Spec.modify_at fun _ => Raise.Spec.pure fun after same => ⟨?_, same⟩
    rw [lastFrame, if_pos blank, none]
  · refine Raise.Spec.throw fun _ _ unlimited => ?_
    simp [exceedsEventLimit, unlimited] at exceeds
  · refine Raise.Spec.bind _ Raise.Spec.modify_at fun _ => Raise.Spec.pure fun after same => ⟨?_, same⟩
    rw [lastFrame, if_neg filled, none]
    rfl

theorem feed_eq (resting : decoder.Resting)
    (unlimited : decoder.maxEventBytes = unlimitedSseEventBytes) (chunk : Bytes) :
    feed chunk decoder = (.ok (blockFrames (eventDelimiter.cut (decoder.buffer ++ chunk)).1),
      decoder.keeping (decoder.buffer ++ chunk)) := by
  have spec := feed_spec resting chunk decoder rfl
  cases outcome : feed chunk decoder with
  | mk result after =>
    rw [outcome] at spec
    cases result with
    | ok frames => rw [spec.1, spec.2]
    | error error => exact absurd unlimited spec

theorem finish_eq (resting : decoder.Resting)
    (unlimited : decoder.maxEventBytes = unlimitedSseEventBytes) :
    (finish decoder).1 = .ok (lastFrame decoder.buffer) := by
  have spec := finish_spec resting decoder rfl
  cases outcome : finish decoder with
  | mk result after =>
    rw [outcome] at spec
    cases result with
    | ok frames => rw [spec.1]
    | error error => exact absurd unlimited spec

/-! ### Whole streams -/

/-- Feeding chunk after chunk. -/
def feedAll : List Bytes → Run (List SseFrame)
  | [] => pure []
  | chunk :: rest => do
    let frames ← feed chunk
    let later ← feedAll rest
    pure (frames ++ later)

/-- Feeding chunk after chunk, and `finish`. -/
def drain (chunks : List Bytes) : Run (List SseFrame) := do
  let frames ← feedAll chunks
  let last ← finish
  pure (frames ++ last)

/-- **The chunks do not show**: fed one by one they are cut as they stand joined. -/
theorem feedAll_eq (resting : decoder.Resting)
    (unlimited : decoder.maxEventBytes = unlimitedSseEventBytes) (chunks : List Bytes) :
    feedAll chunks decoder =
      (.ok (blockFrames (eventDelimiter.cut (decoder.buffer ++ chunks.flatten)).1),
        decoder.keeping (decoder.buffer ++ chunks.flatten)) := by
  induction chunks generalizing decoder with
  | nil =>
    have nothing := eventDelimiter.cut_of_none resting.undelimited
    rw [List.flatten_nil, List.append_nil, keeping, nothing, ← resting.resumes]
    rfl
  | cons chunk rest ih =>
    have later := ih (resting_keeping decoder (decoder.buffer ++ chunk)) unlimited
    rw [keeping_buffer, keeping_keeping] at later
    rw [feedAll, Raise.bind_apply, feed_eq resting unlimited]
    simp only [Raise.bind_apply, later, Raise.pure_apply]
    rw [List.flatten_cons, ← List.append_assoc, eventDelimiter.cut_append (decoder.buffer ++ chunk)]
    simp only [blockFrames, List.filterMap_append]

/-- **The framing loses nothing and does not depend on the chunks.** The stream is the delimited
blocks and a rest; the frames are those of the blocks that are not blank, and of the rest if it is not;
the same frames come out when the stream is fed at once. After any of the chunks, the blocks found are
the first ones, and the pending copy is what follows them. -/
theorem decoder_lossless (chunks : List Bytes) :
    ∃ blocks rest,
      (drain chunks (new unlimitedSseEventBytes)).1 = .ok (blockFrames blocks ++ lastFrame rest) ∧
      (drain [chunks.flatten] (new unlimitedSseEventBytes)).1 =
        .ok (blockFrames blocks ++ lastFrame rest) ∧
      chunks.flatten = blocks.flatMap Block.wire ++ rest ∧
      (∀ block ∈ blocks, block.delimiter ∈ delimiters) ∧
      ∀ count, ∃ found, found <+: blocks ∧
        (feedAll (chunks.take count) (new unlimitedSseEventBytes)).1 = .ok (blockFrames found) ∧
        (chunks.take count).flatten = found.flatMap Block.wire ++
          ((feedAll (chunks.take count) (new unlimitedSseEventBytes)).2.pendingCopy).getD [] := by
  have fed := feedAll_eq (resting_new unlimitedSseEventBytes) rfl
  have drained : ∀ chunks, (drain chunks (new unlimitedSseEventBytes)).1 =
      .ok (blockFrames (eventDelimiter.cut chunks.flatten).1 ++
        lastFrame (eventDelimiter.cut chunks.flatten).2) := by
    intro chunks
    have finished := Raise.eq_of_returned
      (finish_eq (resting_keeping (new unlimitedSseEventBytes) chunks.flatten) rfl)
    rw [drain, Raise.bind_apply, fed]
    simp only [Raise.bind_apply]
    rw [show (new unlimitedSseEventBytes).buffer ++ chunks.flatten = chunks.flatten from rfl, finished]
    rfl
  refine ⟨(eventDelimiter.cut chunks.flatten).1, (eventDelimiter.cut chunks.flatten).2,
    drained chunks, ?_, (eventDelimiter.cut_join _).symm, cut_delimiters _, fun count => ?_⟩
  · rw [drained, List.flatten_singleton]
  · have joined : chunks.flatten = (chunks.take count).flatten ++ (chunks.drop count).flatten := by
      rw [← List.flatten_append, List.take_append_drop]
    refine ⟨(eventDelimiter.cut (chunks.take count).flatten).1, ?_, ?_, ?_⟩
    · rw [joined, eventDelimiter.cut_append]
      exact List.prefix_append _ _
    · rw [fed]
      rfl
    · rw [fed, pendingCopy_getD]
      exact (eventDelimiter.cut_join _).symm

end SseDecoder

end UniApi.Front
