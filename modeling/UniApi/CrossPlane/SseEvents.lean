/-
**Do the Python and the Rust front end read the same events?**

Both sides are compared with the reference machine of event streams. The Python parser computes it, but
for its limits. The Rust decoder cuts at `\n\n`, `\r\r` and `\r\n\r\n` only, so a blank line with two
kinds of line ending does not end a frame, and it keeps a leading U+FEFF.

* `pythonEvents_eq`, `rustEvents_eq`: what each side reads;
* `frontEnds_agree_iff`: they read the same exactly on the streams with `SameReading`;
* `mixed_blank_line_joins_events`: a blank line `\n\r\n` joins two events in Rust.
-/

import UniApi.Front.SseFields
import UniApi.Streaming.SseFields
import UniApi.Streaming.SseSplit

namespace UniApi.CrossPlane

open UniApi.Lib UniApi.Streaming UniApi.Front

/-! ### The events of the two sides -/

/-- The name and the data of the frames that carry data, in Python. -/
def framePairs (frames : List PyStr) : Except StreamError (List (PyStr × PyStr)) := do
  let fields ← frames.mapM extractSseEventFields
  return fields.filterMap fun fields =>
    if fields.hasDataField then some (fields.eventName, fields.data) else none

/-- `IncrementalSSEParser.feed` over the chunks, and `_extract_sse_event_fields`. -/
def pythonEvents (limits : SseLimits) (budget : RetainedBudget) (chunks : List Bytes) :
    Except StreamError (List (PyStr × PyStr)) :=
  framePairs (drive (chunks.map .bytes) (SseCall.fresh limits budget)).frames

/-- `SseDecoder::feed` over the chunks without an event limit, and `parse_sse_frame`. -/
def rustEvents (chunks : List Bytes) : Except ProtocolError (List (Bytes × Bytes)) := do
  let frames ← (SseDecoder.feedAll chunks (SseDecoder.new unlimitedSseEventBytes)).1
  let parsed ← frames.mapM parseSseFrame
  return parsed.filterMap fun frame => frame.data.map fun data => (frame.declaredEvent.getD [], data)

/-- Both sides return, and the Python strings are the Rust strings. -/
def SameEvents (python : Except StreamError (List (PyStr × PyStr)))
    (rust : Except ProtocolError (List (Bytes × Bytes))) : Prop :=
  ∃ pairs pairs', python = .ok pairs ∧ rust = .ok pairs' ∧
    pairs.map (fun pair => (Utf8.encodePoints pair.1, Utf8.encodePoints pair.2)) =
      pairs'.map fun pair => (some pair.1, some pair.2)

/-! ### The condition -/

/-- `'\ufeff'`. -/
def bomChar : Char := Char.ofNat 0xFEFF

/-- The blocks that Rust cuts out of a stream, and what follows them. -/
def rustBlocks (text : List Char) : List (Block UInt8) × Bytes := eventDelimiter.cut (Utf8.encode text)

/-- **The streams both sides read alike.** -/
structure SameReading (text : List Char) : Prop where
  /-- No event has more lines than Python reads. -/
  few : ∀ frame ∈ sseReference (text.map Char.toNat),
    (frame.splitOn lfPoint).length ≤ defaultMaxFieldsPerEvent
  /-- Each block that Rust cuts out is one event: of its paragraphs without a leading U+FEFF at most
  one carries data, and that one says what all lines of the block say with the U+FEFF. -/
  blocks : ∀ block ∈ (rustBlocks (removeMark bomChar text)).1.zip (rustBlocks text).1,
    OneEvent byteSigns (rawLines byteSigns block.1.body) (rawLines byteSigns block.2.body)
  /-- Behind the last block no event with data is complete. -/
  rest : endedPairs byteSigns (rustBlocks (removeMark bomChar text)).2 = []

/-! ### What Python reads -/

section MapM

variable {ε α β : Type} {call : α → Except ε β}

theorem mapM_ok {value : α → β} {list : List α} (each : ∀ item ∈ list, call item = .ok (value item)) :
    list.mapM call = .ok (list.map value) := by
  induction list with
  | nil => rfl
  | cons item rest ih =>
    rw [List.mapM_cons, each item List.mem_cons_self,
      ih fun other member => each other (List.mem_cons_of_mem _ member)]
    rfl

theorem ok_of_mapM {list : List α} {values : List β} (all : list.mapM call = .ok values) :
    ∀ item ∈ list, ∃ value, call item = .ok value := by
  induction list generalizing values with
  | nil => simp
  | cons item rest ih =>
    rw [List.mapM_cons] at all
    cases here : call item with
    | error error => simp [here, bind, Except.bind] at all
    | ok value =>
      cases later : rest.mapM call with
      | error error => simp [here, later, bind, Except.bind] at all
      | ok others =>
        intro other member
        rcases List.mem_cons.mp member with rfl | member
        · exact ⟨value, here⟩
        · exact ih later other member

end MapM

/-- **Frames with few lines** give what their lines say. -/
theorem framePairs_eq {frames : List PyStr}
    (few : ∀ frame ∈ frames, (frame.splitOn lfPoint).length ≤ defaultMaxFieldsPerEvent) :
    framePairs frames = .ok (frames.filterMap fun frame =>
      (read pointSigns (frame.splitOn lfPoint)).pair? pointSigns) := by
  unfold framePairs
  have extracted := mapM_ok fun frame (member : frame ∈ frames) =>
    (extractSseEventFields_eq frame).trans (if_pos (few frame member))
  rw [extracted]
  simp only [bind, Except.bind, pure, Except.pure, List.filterMap_map]
  congr 2
  funext frame
  unfold Reading.pair?
  by_cases silent : (read pointSigns (frame.splitOn lfPoint)).data = []
  · simp [silent]
  · have isLf : pointSigns.lf = lfPoint := rfl
    simp [silent, isLf]

theorem few_of_framePairs {frames : List PyStr} {pairs : List (PyStr × PyStr)}
    (returned : framePairs frames = .ok pairs) :
    ∀ frame ∈ frames, (frame.splitOn lfPoint).length ≤ defaultMaxFieldsPerEvent := by
  unfold framePairs at returned
  cases all : frames.mapM extractSseEventFields with
  | error error => simp [all, bind, Except.bind] at returned
  | ok fields =>
    intro frame member
    obtain ⟨value, extracted⟩ := ok_of_mapM all frame member
    rw [extractSseEventFields_eq] at extracted
    by_contra many
    rw [if_neg many] at extracted
    cases extracted

/-- **Python reads the frames of the reference**, if no limit is reached. -/
theorem pythonEvents_eq (limits : SseLimits) {budget : RetainedBudget} (consistent : budget.Consistent)
    {chunks : List Bytes} {text : List Char} (isText : chunks.flatten = Utf8.encode text)
    (granted : (drive (chunks.map .bytes) (SseCall.fresh limits budget)).exhausted = false) :
    pythonEvents limits budget chunks = framePairs (sseReference (text.map Char.toNat)) := by
  have decoded : Utf8.decode [] chunks.flatten = some (text.map Char.toNat, []) := by
    rw [isText, Utf8.decode_encode]
  rw [pythonEvents, drive_fresh limits consistent chunks granted, streamResult,
    readChunks_decoded decoded, textMachine_reference]

/-! ### Characters in between -/

/-- The frames of a stream as characters. -/
def charFrames (text : List Char) : List (List Char) :=
  ((blankLines '\n').run [] (normalizeLines '\r' '\n' (removeMark bomChar text))).1

/-- What they say. -/
def charPairs (text : List Char) : List (List Char × List Char) :=
  (charFrames text).filterMap fun frame => (read charSigns (frame.splitOn '\n')).pair? charSigns

/-- Reading frames commutes with an encoding. -/
theorem filterMap_pair?_coded {β : Type} [DecidableEq β] {signs : EventSigns β} {code : Char → List β}
    (keeps : KeepsSigns charSigns signs code) (frames : List (List Char)) :
    ((frames.map (List.flatMap code)).filterMap fun frame =>
        (read signs (frame.splitOn signs.lf)).pair? signs) =
      (frames.filterMap fun frame => (read charSigns (frame.splitOn '\n')).pair? charSigns).map
        fun pair => (pair.1.flatMap code, pair.2.flatMap code) := by
  rw [List.filterMap_map, List.map_filterMap]
  congr 1
  funext frame
  have split := keeps.lf.splitOn_coded frame
  have isLf : charSigns.lf = '\n' := rfl
  rw [isLf] at split
  simp only [Function.comp_apply, split, keeps.read_coded, keeps.pair?_coded]

/-- The stages of a stream commute with an encoding. -/
theorem blankLines_normalized_coded {β : Type} [DecidableEq β] {signs : EventSigns β}
    {code : Char → List β} (keeps : KeepsSigns charSigns signs code) (text : List Char) :
    ((blankLines signs.lf).run [] (normalizeLines signs.cr signs.lf
        ((removeMark bomChar text).flatMap code))).1 = (charFrames text).map (List.flatMap code) := by
  have coded := keeps.lineEndings.blankLines_coded []
    (normalizeLines charSigns.cr charSigns.lf (removeMark bomChar text))
  rw [List.flatMap_nil] at coded
  rw [keeps.normalizeLines_coded, coded]
  rfl

theorem sseReference_chars (text : List Char) :
    sseReference (text.map Char.toNat) = (charFrames text).map (List.map Char.toNat) := by
  have frames := blankLines_normalized_coded points_keepsSigns text
  have mark := (points_keepsSign (show bomChar.toNat = bomPoint by decide)).removeMark_coded
    (fun _ => List.cons_ne_nil _ _) text
  rw [flatMap_toNat] at frames mark
  rw [sseReference, mark]
  exact frames

/-- **What Python reads, in characters.** -/
theorem framePairs_chars {text : List Char} (few : ∀ frame ∈ sseReference (text.map Char.toNat),
    (frame.splitOn lfPoint).length ≤ defaultMaxFieldsPerEvent) :
    framePairs (sseReference (text.map Char.toNat)) =
      .ok ((charPairs text).map fun pair => (pair.1.map Char.toNat, pair.2.map Char.toNat)) := by
  have coded := filterMap_pair?_coded points_keepsSigns (charFrames text)
  rw [flatMap_toNat] at coded
  rw [framePairs_eq few, sseReference_chars]
  exact congrArg Except.ok coded

/-- **The reference machine over the bytes, in characters.** -/
theorem eventStream_chars (text : List Char) :
    ((eventStream byteSigns).run (false, [], Reading.empty) (Utf8.encode (removeMark bomChar text))).1 =
      (charPairs text).map fun pair => (Utf8.encode pair.1, Utf8.encode pair.2) := by
  rw [eventStream_run, newlines_run byteSigns.different, events_blankLines]
  have frames := blankLines_normalized_coded utf8_keepsSigns text
  have coded := filterMap_pair?_coded utf8_keepsSigns (charFrames text)
  rw [← frames] at coded
  exact coded

/-! ### What Rust reads -/

/-- A delimiter starts with an ASCII byte and ends with one, and has none other. -/
theorem delimiters_ascii : ∀ delimiter ∈ delimiters, delimiter ≠ [] ∧
    ∀ byte ∈ delimiter, byte.toNat < 0x80 := by decide +kernel

theorem valid_after_ascii {letters : List Char} {delimiter rest : Bytes}
    (ascii : ∀ byte ∈ delimiter, byte.toNat < 0x80)
    (same : Utf8.encode letters = delimiter ++ rest) : Utf8.Valid rest := by
  induction delimiter generalizing letters with
  | nil => exact ⟨letters, same.symm⟩
  | cons byte others ih =>
    rw [List.cons_append, ← List.nil_append (byte :: _)] at same
    obtain ⟨before, after, empty, later, -⟩ :=
      encode_eq_append (ascii byte List.mem_cons_self) same
    exact ih (fun other member => ascii other (List.mem_cons_of_mem _ member)) later.symm

/-- **The blocks of a UTF-8 stream are UTF-8.** -/
theorem cut_valid {bytes : Bytes} (valid : Utf8.Valid bytes) :
    ∀ block ∈ (eventDelimiter.cut bytes).1, Utf8.Valid block.body := by
  induction bytes using eventDelimiter.cut_induct with
  | rest bytes nothing => simp [eventDelimiter.cut_of_none nothing]
  | block bytes start length found ih =>
    obtain ⟨letters, rfl⟩ := valid
    have ends := cut_delimiters (Utf8.encode letters)
    rw [eventDelimiter.cut_of_some found] at ends ⊢
    have member := ends _ List.mem_cons_self
    obtain ⟨nonempty, ascii⟩ := delimiters_ascii _ member
    have parts := Finder.block_wire (Utf8.encode letters) start length
    obtain ⟨byte, others, delimiter⟩ := List.exists_cons_of_ne_nil nonempty
    rw [delimiter] at ascii
    rw [Block.wire, List.append_assoc, delimiter] at parts
    obtain ⟨before, after, body, later, -⟩ :=
      encode_eq_append (ascii byte List.mem_cons_self) parts.symm
    have rest : Utf8.Valid ((Utf8.encode letters).drop (start + length)) := valid_after_ascii
      (fun other member => ascii other (List.mem_cons_of_mem _ member)) later.symm
    intro block member
    rcases List.mem_cons.mp member with rfl | member
    · exact ⟨before, body⟩
    · exact ih rest block member

theorem mem_of_mem_splitOn {sign byte : UInt8} {text line : Bytes} (part : line ∈ text.splitOn sign)
    (member : byte ∈ line) : byte ∈ text := by
  induction text generalizing line with
  | nil =>
    rw [List.splitOn_nil, List.mem_singleton] at part
    subst part
    cases member
  | cons symbol rest ih =>
    rw [List.splitOn_cons_eq_if_modifyHead] at part
    split at part
    · rcases List.mem_cons.mp part with rfl | later
      · cases member
      · exact List.mem_cons_of_mem _ (ih later member)
    · cases parts : rest.splitOn sign with
      | nil => exact absurd parts (List.splitOn_ne_nil _ _)
      | cons head tail =>
        rw [parts, List.modifyHead_cons] at part
        rcases List.mem_cons.mp part with rfl | later
        · rcases List.mem_cons.mp member with rfl | inside
          · exact List.mem_cons_self
          · exact List.mem_cons_of_mem _ (ih (by rw [parts]; exact List.mem_cons_self) inside)
        · exact List.mem_cons_of_mem _ (ih (by rw [parts]; exact List.mem_cons_of_mem _ later) member)

theorem carries_letter {text : Bytes} (carries : Carries byteSigns (rawLines byteSigns text)) :
    (100 : UInt8) ∈ text := by
  by_contra absent
  have plain : ∀ line ∈ rawLines byteSigns text, (100 : UInt8) ∉ line := by
    intro line part member
    have inside := mem_of_mem_splitOn part member
    rw [← newlines_run byteSigns.different] at inside
    have emitted := (newlines byteSigns.cr byteSigns.lf).run_emits (fun byte => byte ≠ 100)
      (fun byte => byte ≠ 100) (fun afterCr symbol takes out step => by
        simp only [newlines] at step
        split at step
        · rw [List.mem_singleton.mp step]
          decide
        · split at step
          · cases step
          · rw [List.mem_singleton.mp step]
            exact takes)
      false text fun byte member same => absent (same ▸ member)
    exact emitted _ inside rfl
  have silent : ∀ lines : List Bytes, (∀ line ∈ lines, (100 : UInt8) ∉ line) →
      (read byteSigns lines).data = [] := by
    intro lines
    induction lines using List.reverseRecOn with
    | nil => exact fun _ => rfl
    | append_singleton before line ih =>
      intro plain
      have here := plain line (List.mem_append_right _ List.mem_cons_self)
      have there := ih fun other member => plain other (List.mem_append_left _ member)
      have field : (fieldOf byteSigns line).1 ≠ byteSigns.dataField := by
        intro named
        have letter : (100 : UInt8) ∈ (fieldOf byteSigns line).1 := by
          rw [named]
          decide
        refine here ?_
        unfold fieldOf at letter
        split at letter
        · exact letter
        · exact (List.takeWhile_prefix _).subset letter
      rw [read_concat, Reading.take]
      simp only [if_neg field]
      split <;> exact there
  exact carries (silent _ plain)

theorem not_carries_of_blank {body : Bytes} (blank : body.all isAsciiWhitespace = true) :
    ¬ Carries byteSigns (rawLines byteSigns body) := by
  intro carries
  have letter := List.all_eq_true.mp blank 100 (carries_letter carries)
  exact absurd letter (by decide)

/-- What Rust reads in the frame of a block. -/
theorem parse_blockFrame {block : Block UInt8} {frame : SseFrame} (valid : Utf8.Valid block.body)
    (given : blockFrame block = some frame) :
    ∃ parsed, parseSseFrame frame = .ok parsed ∧
      (parsed.data.map fun data => (parsed.declaredEvent.getD [], data)) =
        (frameReading block.body).pair? byteSigns := by
  unfold blockFrame at given
  split at given
  · cases given
  · cases given
    have raw : SseFrame.raw ⟨block.wire, block.body.length, true⟩ = block.body := List.take_left
    obtain ⟨letters, encoded⟩ := valid
    have decodes : Utf8.decodeAll (SseFrame.raw ⟨block.wire, block.body.length, true⟩) ≠ none := by
      rw [raw, encoded, Utf8.decodeAll_encode]
      exact Option.some_ne_none _
    refine ⟨_, parseSseFrame_eq decodes, ?_⟩
    rw [raw]
    unfold Reading.pair?
    by_cases silent : (frameReading block.body).data = []
    · simp [silent]
    · have isLf : byteSigns.lf = lf := rfl
      simp [silent, isLf]

/-- **Rust reads each block as one event.** -/
theorem rustEvents_eq {chunks : List Bytes} {text : List Char}
    (isText : chunks.flatten = Utf8.encode text) :
    rustEvents chunks = .ok ((rustBlocks text).1.filterMap fun block =>
      (frameReading block.body).pair? byteSigns) := by
  have fed := SseDecoder.feedAll_eq (SseDecoder.resting_new unlimitedSseEventBytes) rfl chunks
  have valid := cut_valid ⟨text, rfl⟩
  unfold rustEvents
  rw [fed, isText]
  have start : (SseDecoder.new unlimitedSseEventBytes).buffer ++ Utf8.encode text = Utf8.encode text :=
    rfl
  rw [start, rustBlocks]
  have along : ∀ blocks : List (Block UInt8), (∀ block ∈ blocks, Utf8.Valid block.body) →
      (do let parsed ← (blockFrames blocks).mapM parseSseFrame
          return parsed.filterMap fun frame =>
            frame.data.map fun data => (frame.declaredEvent.getD [], data) :
          Except ProtocolError (List (Bytes × Bytes))) =
        .ok (blocks.filterMap fun block => (frameReading block.body).pair? byteSigns) := by
    intro blocks
    induction blocks with
    | nil => exact fun _ => rfl
    | cons block rest ih =>
      intro valid
      have later := ih fun other member => valid other (List.mem_cons_of_mem _ member)
      cases given : blockFrame block with
      | none =>
        have blank : block.body.all isAsciiWhitespace = true := by
          by_contra filled
          simp [blockFrame, filled] at given
        have silent : (frameReading block.body).pair? byteSigns = none :=
          (pair?_eq_none_iff byteSigns _).mpr (not_carries_of_blank blank)
        have same : blockFrames (block :: rest) = blockFrames rest := by simp [blockFrames, given]
        rw [same, later, List.filterMap_cons, silent]
      | some frame =>
        obtain ⟨parsed, parses, pair⟩ := parse_blockFrame (valid block List.mem_cons_self) given
        have same : blockFrames (block :: rest) = frame :: blockFrames rest := by
          simp [blockFrames, given]
        rw [same, List.mapM_cons, parses]
        cases others : (blockFrames rest).mapM parseSseFrame with
        | error error => simp [others, bind, Except.bind] at later
        | ok values =>
          simp only [others, bind, Except.bind, pure, Except.pure, Except.ok.injEq] at later ⊢
          rw [List.filterMap_cons, List.filterMap_cons, pair, later]
  exact along _ valid

/-! ### The leading U+FEFF -/

theorem scanDelimiter_shift (index from' : Nat) (bytes : Bytes) :
    scanDelimiter (index + from') bytes =
      (scanDelimiter from' bytes).map fun place => (index + place.1, place.2) := by
  induction bytes generalizing from' with
  | nil => rfl
  | cons byte rest ih =>
    rw [scanDelimiter_cons, scanDelimiter_cons]
    cases delimiterAt (byte :: rest) with
    | some length => rfl
    | none => exact ih (from' + 1)

/-- Bytes without CR and LF in front shift the first delimiter. -/
theorem find_after_plain {mark : Bytes} (plain : ∀ byte ∈ mark, byte ≠ cr ∧ byte ≠ lf) (bytes : Bytes) :
    eventDelimiter.find (mark ++ bytes) =
      (eventDelimiter.find bytes).map fun place => (mark.length + place.1, place.2) := by
  have skip : ∀ index, scanDelimiter index (mark ++ bytes) =
      scanDelimiter (index + mark.length) bytes := by
    induction mark with
    | nil => exact fun _ => rfl
    | cons byte rest ih =>
      intro index
      have other := plain byte List.mem_cons_self
      have later := ih (fun other member => plain other (List.mem_cons_of_mem _ member)) (index + 1)
      rw [List.cons_append, scanDelimiter_cons, delimiterAt_of_other _ other, List.length_cons,
        Nat.add_comm rest.length, ← Nat.add_assoc]
      exact later
  have whole : ∀ bytes, eventDelimiter.find bytes = scanDelimiter 0 bytes := by
    intro bytes
    simp [eventDelimiter, findEventDelimiterFrom]
  rw [whole, whole, skip, Nat.zero_add, ← scanDelimiter_shift, Nat.add_zero]

/-- **Such bytes stay at the front of the first block.** -/
theorem cut_after_plain {mark : Bytes} (plain : ∀ byte ∈ mark, byte ≠ cr ∧ byte ≠ lf) (bytes : Bytes) :
    eventDelimiter.cut (mark ++ bytes) =
      match eventDelimiter.cut bytes with
      | ([], rest) => ([], mark ++ rest)
      | (block :: later, rest) => ({ block with body := mark ++ block.body } :: later, rest) := by
  have found := find_after_plain plain bytes
  cases here : eventDelimiter.find bytes with
  | none =>
    rw [here] at found
    rw [eventDelimiter.cut_of_none found, eventDelimiter.cut_of_none here]
  | some place =>
    obtain ⟨start, length⟩ := place
    rw [here] at found
    rw [eventDelimiter.cut_of_some found, eventDelimiter.cut_of_some here]
    simp only [Finder.block, Nat.add_assoc, List.drop_length_add_append, List.take_length_add_append]

theorem rawLines_after_plain {mark : Bytes} (plain : ∀ byte ∈ mark, byte ≠ cr ∧ byte ≠ lf)
    (text : Bytes) :
    rawLines byteSigns (mark ++ text) = (rawLines byteSigns text).modifyHead (mark ++ ·) := by
  have noCr : byteSigns.cr ∉ mark := fun member => (plain _ member).1 rfl
  have noLf : byteSigns.lf ∉ mark := fun member => (plain _ member).2 rfl
  have run : (newlines byteSigns.cr byteSigns.lf).run false mark = (mark, false) :=
    newlines_run_plain mark noCr
  unfold rawLines
  rw [← newlines_run byteSigns.different, Mealy.run_append, run, newlines_run byteSigns.different]
  exact splitOn_append_of_not_mem noLf _

/-- `'﻿'` in UTF-8. -/
def bomBytes : Bytes := [0xEF, 0xBB, 0xBF]

theorem bomBytes_plain : ∀ byte ∈ bomBytes, byte ≠ cr ∧ byte ≠ lf := by decide +kernel

theorem take_bom (reading : Reading UInt8) (line : Bytes) :
    reading.take byteSigns (bomBytes ++ line) = reading := by
  have field : (fieldOf byteSigns (bomBytes ++ line)).1 = bomBytes ++ (fieldOf byteSigns line).1 := by
    have all : ∀ byte ∈ bomBytes, decide (byte ≠ byteSigns.colon) = true := by decide +kernel
    unfold fieldOf
    rw [List.dropWhile_append_of_pos all, List.takeWhile_append_of_pos all]
    cases line.dropWhile (· ≠ byteSigns.colon) <;> rfl
  have notEvent : bomBytes ++ (fieldOf byteSigns line).1 ≠ byteSigns.eventField := by
    intro same
    cases congrArg List.head? same
  have notData : bomBytes ++ (fieldOf byteSigns line).1 ≠ byteSigns.dataField := by
    intro same
    cases congrArg List.head? same
  unfold Reading.take
  simp only [field, if_neg notEvent, if_neg notData]

/-- **What Rust sees of the first block carries no more data** than the block without U+FEFF. -/
theorem exists_carries_bom {body : Bytes}
    (carries : Carries byteSigns (rawLines byteSigns (bomBytes ++ body))) :
    ∃ paragraph ∈ paragraphs (rawLines byteSigns body), Carries byteSigns paragraph := by
  refine exists_carries fun silent => carries ?_
  rw [rawLines_after_plain bomBytes_plain]
  cases lines : rawLines byteSigns body with
  | nil => rfl
  | cons first rest =>
    rw [lines] at silent
    have split : read byteSigns (first :: rest) = rest.foldl (Reading.take byteSigns)
      (Reading.empty.take byteSigns first) := rfl
    rw [split, foldl_take_data, List.append_eq_nil_iff] at silent
    have seen : read byteSigns ((bomBytes ++ first) :: rest) = read byteSigns rest := by
      simp only [Lib.read, List.foldl_cons, take_bom]
    rw [List.modifyHead_cons, seen]
    exact silent.2

/-- The blocks of a stream without and with a leading U+FEFF, side by side. -/
theorem rustBlocks_sides (text : List Char) :
    ∃ sides : List (Block UInt8 × Block UInt8),
      (rustBlocks (removeMark bomChar text)).1 = sides.map Prod.fst ∧
      (rustBlocks text).1 = sides.map Prod.snd ∧
      ∀ side ∈ sides, Carries byteSigns (rawLines byteSigns side.2.body) →
        ∃ paragraph ∈ paragraphs (rawLines byteSigns side.1.body), Carries byteSigns paragraph := by
  have alike : ∀ blocks : List (Block UInt8), ∃ sides : List (Block UInt8 × Block UInt8),
      blocks = sides.map Prod.fst ∧ blocks = sides.map Prod.snd ∧
      ∀ side ∈ sides, Carries byteSigns (rawLines byteSigns side.2.body) →
        ∃ paragraph ∈ paragraphs (rawLines byteSigns side.1.body), Carries byteSigns paragraph := by
    intro blocks
    refine ⟨blocks.map fun block => (block, block), ?_, ?_, ?_⟩
    · rw [List.map_map]
      exact (List.map_id blocks).symm
    · rw [List.map_map]
      exact (List.map_id blocks).symm
    intro side member
    obtain ⟨block, -, rfl⟩ := List.mem_map.mp member
    exact exists_carries
  cases text with
  | nil => exact alike _
  | cons letter rest =>
    by_cases marked : letter = bomChar
    · have bytes : Utf8.encode (letter :: rest) = bomBytes ++ Utf8.encode rest := by
        rw [Utf8.encode_cons, marked, show String.utf8EncodeChar bomChar = bomBytes by decide]
      have cut := cut_after_plain bomBytes_plain (Utf8.encode rest)
      unfold rustBlocks
      rw [removeMark, if_pos marked, bytes, cut]
      generalize eventDelimiter.cut (Utf8.encode rest) = result
      obtain ⟨blocks, last⟩ := result
      cases blocks with
      | nil => exact ⟨[], rfl, rfl, by simp⟩
      | cons block later =>
        obtain ⟨sides, first, second, each⟩ := alike later
        refine ⟨(block, { block with body := bomBytes ++ block.body }) :: sides,
          by rw [List.map_cons, ← first], by rw [List.map_cons, ← second], ?_⟩
        intro side member
        rcases List.mem_cons.mp member with rfl | member
        · exact exists_carries_bom
        · exact each side member
    · rw [removeMark, if_neg marked]
      exact alike _

/-! ### The two sides -/

theorem delimiters_blockEnds : ∀ delimiter ∈ delimiters, delimiter ∈ blockEnds byteSigns := by decide

/-- **What Python reads, block by block of Rust.** -/
theorem charPairs_blocks (text : List Char) :
    ((charPairs text).map fun pair => (Utf8.encode pair.1, Utf8.encode pair.2)) =
      (rustBlocks (removeMark bomChar text)).1.flatMap
          (fun block => pairsOf byteSigns (paragraphs (rawLines byteSigns block.body))) ++
        endedPairs byteSigns (rustBlocks (removeMark bomChar text)).2 := by
  have blocks := eventStream_run_blocks byteSigns
    (fun block member => delimiters_blockEnds _
      (cut_delimiters (Utf8.encode (removeMark bomChar text)) block member))
    (rustBlocks (removeMark bomChar text)).2
  have joined := eventDelimiter.cut_join (Utf8.encode (removeMark bomChar text))
  unfold rustBlocks at blocks ⊢
  rw [joined] at blocks
  rw [← eventStream_chars, blocks]

/-- The pairs of Python, in UTF-8. -/
theorem encodePoints_pairs (pairs : List (List Char × List Char)) :
    (pairs.map fun pair => (pair.1.map Char.toNat, pair.2.map Char.toNat)).map
        (fun pair => (Utf8.encodePoints pair.1, Utf8.encodePoints pair.2)) =
      (pairs.map fun pair => (Utf8.encode pair.1, Utf8.encode pair.2)).map
        fun pair => (some pair.1, some pair.2) := by
  simp only [List.map_map, Function.comp_def, Utf8.encodePoints_toNat]

theorem some_pairs_injective :
    Function.Injective (List.map fun pair : Bytes × Bytes => (some pair.1, some pair.2)) := by
  refine List.map_injective_iff.mpr fun first second same => ?_
  simp only [Prod.mk.injEq, Option.some.injEq] at same
  exact Prod.ext same.1 same.2

/-- **Both sides read the same events exactly on these streams**, in any two chunkings, if Python reaches
no byte limit and gets its reservations. -/
theorem frontEnds_agree_iff (limits : SseLimits) {budget : RetainedBudget}
    (consistent : budget.Consistent) {pythonChunks rustChunks : List Bytes} {text : List Char}
    (isText : pythonChunks.flatten = Utf8.encode text)
    (isText' : rustChunks.flatten = Utf8.encode text)
    (granted : (drive (pythonChunks.map .bytes) (SseCall.fresh limits budget)).exhausted = false) :
    SameEvents (pythonEvents limits budget pythonChunks) (rustEvents rustChunks) ↔
      SameReading text := by
  rw [pythonEvents_eq limits consistent isText granted, rustEvents_eq isText']
  obtain ⟨sides, first, second, dataFrom⟩ := rustBlocks_sides text
  have zipped : (rustBlocks (removeMark bomChar text)).1.zip (rustBlocks text).1 = sides := by
    rw [first, second, List.zip_map']
    exact List.map_id _
  have python := charPairs_blocks text
  rw [first, List.flatMap_map] at python
  have rust : ((rustBlocks text).1.filterMap fun block => (frameReading block.body).pair? byteSigns) =
      sides.flatMap fun side =>
        ((read byteSigns (rawLines byteSigns side.2.body)).pair? byteSigns).toList := by
    rw [second, List.filterMap_map, List.filterMap_eq_flatMap_toList]
    rfl
  have agree := flatMap_eq_append_iff (endedPairs byteSigns (rustBlocks (removeMark bomChar text)).2)
    fun side member => pair?_length_le (dataFrom side member)
  rw [rust]
  constructor
  · rintro ⟨pairs, pairs', returned, returned', same⟩
    have few := few_of_framePairs returned
    rw [framePairs_chars few] at returned
    cases returned
    cases returned'
    rw [encodePoints_pairs, python] at same
    obtain ⟨each, nothing⟩ := agree.mp (some_pairs_injective same).symm
    refine ⟨few, ?_, nothing⟩
    rw [zipped]
    exact fun side member => (pair?_eq_pairsOf_iff (dataFrom side member)).mp (each side member)
  · rintro ⟨few, blocks, nothing⟩
    rw [zipped] at blocks
    have same := agree.mpr ⟨fun side member =>
      (pair?_eq_pairsOf_iff (dataFrom side member)).mpr (blocks side member), nothing⟩
    refine ⟨_, _, framePairs_chars few, rfl, ?_⟩
    rw [encodePoints_pairs, python, same]

/-- A CRLF stream with U+FEFF in front of a comment, cut differently on the two sides. -/
theorem frontEnds_agree_iff_crlf :
    SameEvents
        (pythonEvents ⟨0, 0, 4096, 0, by decide⟩ (.fresh 1000 none "stream_parser")
          [[0xEF, 0xBB, 0xBF, 0x3A, 0x0D, 0x0A, 0x0D], Utf8.lit "\ndata: a\r\n\r\n"])
        (rustEvents [[0xEF], [0xBB, 0xBF, 0x3A], Utf8.lit "\r\n\r\ndata: a\r", Utf8.lit "\n\r\n"]) ↔
      SameReading (bomChar :: ":\r\n\r\ndata: a\r\n\r\n".toList) :=
  frontEnds_agree_iff ⟨0, 0, 4096, 0, by decide⟩ (RetainedBudget.consistent_fresh 1000 _)
    (by decide +kernel) (by decide +kernel) (by decide +kernel)

/-- **A blank line with two kinds of line ending** ends an event in Python, and none in Rust. -/
theorem mixed_blank_line_joins_events :
    pythonEvents ⟨0, 0, 4096, 0, by decide⟩ (.fresh 1000 none "stream_parser")
        [Utf8.lit "data: a\n\r\ndata: b\n\n"] =
          .ok [([], Utf8.points "a"), ([], Utf8.points "b")] ∧
      rustEvents [Utf8.lit "data: a\n\r\ndata: b\n\n"] = .ok [([], Utf8.lit "a\nb")] ∧
      ¬ SameEvents
        (pythonEvents ⟨0, 0, 4096, 0, by decide⟩ (.fresh 1000 none "stream_parser")
          [Utf8.lit "data: a\n\r\ndata: b\n\n"])
        (rustEvents [Utf8.lit "data: a\n\r\ndata: b\n\n"]) := by
  have python : pythonEvents ⟨0, 0, 4096, 0, by decide⟩ (.fresh 1000 none "stream_parser")
      [Utf8.lit "data: a\n\r\ndata: b\n\n"] =
        .ok [([], Utf8.points "a"), ([], Utf8.points "b")] := by decide +kernel
  have rust : rustEvents [Utf8.lit "data: a\n\r\ndata: b\n\n"] = .ok [([], Utf8.lit "a\nb")] := by
    decide
  refine ⟨python, rust, ?_⟩
  rw [python, rust]
  rintro ⟨pairs, pairs', returned, returned', same⟩
  cases returned
  cases returned'
  exact absurd (congrArg List.length same) (by decide)

end UniApi.CrossPlane
