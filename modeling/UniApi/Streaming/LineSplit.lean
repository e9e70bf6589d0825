/-
**The cuts of a stream do not show in its lines.**

* `lineMachine`: the stages of the parser behind the decoder as a machine: drop a leading U+FEFF,
  turn every line ending into LF once it is complete, cut at each LF;
* `extractLines_frames`, `lineFeed_frames`, `lineFinish_frames`: what a call returns,
  unless a limit is too small;
* `lines_split_invariant`: the chunks and the finish give the lines of the text.
-/

import UniApi.Lib.Lines
import UniApi.Streaming.LineParser
import UniApi.Streaming.SseSplit

namespace UniApi.Streaming

open UniApi.Lib RetainedBudget

/-- The stages behind the decoder. The state: whether the stream is at its start, whether a CR is
held back, and the line so far. -/
def lineMachine : Mealy (Bool × Bool × PyStr) CodePoint PyStr :=
  (leadingMark bomPoint).cascade ((waitingNewlines crPoint lfPoint).cascade (cutLines lfPoint))

/-- **The lines of a text**, without one leading U+FEFF. -/
def lineReference (text : PyStr) : List PyStr :=
  linesFrom crPoint lfPoint [] (removeMark bomPoint text)

/-- The lines that are left at the end. -/
def lastLines (stage : Bool × Bool × PyStr) : List PyStr :=
  ((cutLines lfPoint).run stage.2.2 (heldEnding lfPoint stage.2.1)).1 ++
    lastLine ((cutLines lfPoint).run stage.2.2 (heldEnding lfPoint stage.2.1)).2

theorem crPoint_ne_lfPoint : crPoint ≠ lfPoint := by decide

/-- The lines of a run are the cuts of what the two stages in front give. -/
theorem lineMachine_run (stage : Bool × Bool × PyStr) (text : PyStr) :
    let bare := (leadingMark bomPoint).run stage.1 text
    let plain := (waitingNewlines crPoint lfPoint).run stage.2.1 bare.1
    let cut := (cutLines lfPoint).run stage.2.2 plain.1
    lineMachine.run stage text = (cut.1, bare.2, plain.2, cut.2) := by
  rw [lineMachine, Mealy.cascade_run, Mealy.cascade_run]

/-- **A whole text gives its lines.** -/
theorem lineMachine_reference (text : PyStr) :
    (lineMachine.run (true, false, []) text).1 ++
        lastLines (lineMachine.run (true, false, []) text).2 =
      lineReference text := by
  rw [lineMachine_run, lineReference, linesFrom_eq crPoint_ne_lfPoint,
    ← waitingNewlines_run crPoint_ne_lfPoint, Mealy.run_append,
    leadingMark_text]
  exact (List.append_assoc _ _ _).symm

namespace LineParser

theorem stripInitialBom_eq (text : PyStr) (parser : LineParser) :
    parser.stripInitialBom text false =
      (((leadingMark bomPoint).run parser.atStreamStart text).1,
        { parser with
          atStreamStart := ((leadingMark bomPoint).run parser.atStreamStart text).2 }) := by
  unfold stripInitialBom
  cases start : parser.atStreamStart with
  | false =>
    have unchanged : { parser with atStreamStart := false } = parser := by rw [← start]
    simp [leadingMark_run_false, unchanged]
  | true =>
    by_cases empty : text = []
    · simp [empty, ← start]
    · simp [empty, leadingMark_run bomPoint text empty]

theorem normalizeNewlines_eq (text : PyStr) (parser : LineParser) :
    parser.normalizeNewlines text false =
      (((waitingNewlines crPoint lfPoint).run parser.pendingCr text).1,
        { parser with
          pendingCr := ((waitingNewlines crPoint lfPoint).run parser.pendingCr text).2 }) := by
  have fromPlain (rest : PyStr) : decide (rest.getLast? = some crPoint) =
      ((waitingNewlines crPoint lfPoint).run false rest).2 := by
    by_cases empty : rest = []
    · rw [empty]
      rfl
    · rw [waitingNewlines_run_state rest empty]
  unfold normalizeNewlines
  by_cases empty : text = []
  · simp [empty, normalizeLines, replaceCr, replaceCrLf]
  · cases waits : parser.pendingCr with
    | false => simp [← fromPlain, waitingNewlines_run_text crPoint_ne_lfPoint]
    | true =>
      rw [waitingNewlines_run_true crPoint_ne_lfPoint empty]
      simp [empty, ← fromPlain, waitingNewlines_run_text crPoint_ne_lfPoint]

end LineParser

/-! ### Room -/

/-- What a run is about: the counter, the limits and the bytes that come. -/
structure LineSetting where
  category : String
  others : Int
  limits : LineLimits
  capacity : Int
  /-- No governor shares the budget. -/
  alone : Prop
  total : Nat

/-- **No limit is reached** by this many bytes, whatever they are. -/
structure LineSetting.Room (setting : LineSetting) : Prop where
  line : setting.total ≤ setting.limits.maxLineBytes
  lines : setting.total ≤ setting.limits.maxLinesPerFeed
  feed : setting.total ≤ setting.limits.maxFeedBytes
  alone : setting.alone
  capacity : setting.others + setting.total ≤ setting.capacity

/-- What a call leaves that raises: a limit is too small. -/
def LineSetting.Exceeded (setting : LineSetting) (error : StreamError) (call : LineCall) : Prop :=
  (error.isResource = true ∧ ¬ setting.Room) ∧ LineBooks setting.category setting.others call

/-- The bytes of the frames, with one for the ending of each. -/
def frameBytes (frames : List RetainedTextFrame) : Int := charges frames + frames.length

/-- **The books of a run**: of the bytes, `extra` are in neither the line nor a frame. -/
structure LineSetting.Within (setting : LineSetting) (extra : Int) (call : LineCall) : Prop where
  books : LineBooks setting.category setting.others call
  limits : call.parser.limits = setting.limits
  spent : call.parser.line.length + frameBytes call.frames + extra ≤ setting.total
  alone : setting.alone →
    call.budget.memoryGovernor = none ∧ call.budget.capacityBytes = setting.capacity

section Room

variable {setting : LineSetting} {extra : Int} {call : LineCall}

theorem frameBytes_nonneg {frames : List RetainedTextFrame}
    (each : ∀ frame ∈ frames, 0 ≤ frame.charge) :
    frames.length ≤ frameBytes frames := by
  have held := charges_nonneg each
  rw [frameBytes]
  omega

theorem LineSetting.Within.nonneg (within : setting.Within extra call) :
    (call.frames.length : Int) ≤ frameBytes call.frames := frameBytes_nonneg within.books.frames

theorem LineSetting.Within.less {less : Int} (within : setting.Within extra call)
    (fewer : less ≤ extra) :
    setting.Within less call :=
  ⟨within.books, within.limits, by have := within.spent; omega, within.alone⟩

/-- **Reserving** what there is room for is granted, when no governor is asked. -/
theorem reserve_alone {budget : RetainedBudget} (size : Int)
    (alone : budget.memoryGovernor = none) :
    (reserve size budget).2.memoryGovernor = none ∧
      (reserve size budget).2.capacityBytes = budget.capacityBytes ∧
      (budget.usedBytes + size ≤ budget.capacityBytes → (reserve size budget).1 = .ok ()) := by
  rw [reserve]
  split
  · exact ⟨alone, rfl, fun _ => rfl⟩
  · rw [alone]
    dsimp only
    by_cases full : budget.usedBytes + size > budget.capacityBytes
    · have refused : reserveLocal size budget =
          (.error .bufferBudgetExhausted, { budget with rejected := budget.rejected + 1 }) := by
        rw [reserveLocal, Raise.bind_apply, Raise.get_apply]
        dsimp only
        rw [if_pos full, Raise.bind_apply, Raise.modify_apply]
        dsimp only
        rw [Raise.bind_apply, releaseParent]
        dsimp only
        rw [alone]
        rfl
      rw [refused]
      exact ⟨alone, rfl, fun fits => absurd fits (by omega)⟩
    · have granted : reserveLocal size budget = (.ok (), { budget with
          usedBytes := budget.usedBytes + size
          peakBytes := max budget.peakBytes (budget.usedBytes + size) }) := by
        rw [reserveLocal, Raise.bind_apply, Raise.get_apply]
        dsimp only
        rw [if_neg full]
        rfl
      rw [granted]
      exact ⟨alone, rfl, fun _ => rfl⟩

/-- A limit that is not large enough. -/
theorem lineFailWith_exceeded {α : Type} {error : StreamError} {pre : LineCall → Prop}
    {post : α → LineCall → Prop} (resource : error.isResource = true) (short : ¬ setting.Room)
    (books : ∀ call, pre call → LineBooks setting.category setting.others call) :
    Raise.Spec pre (LineCall.failWith error) post setting.Exceeded :=
  fun call start => ⟨⟨resource, short⟩, (books call start).of_sameParser rfl rfl⟩

theorem validateCompleteLine_within {pre : LineCall → Prop} (nonneg : 0 ≤ extra)
    (within : ∀ call, pre call → setting.Within extra call) :
    Raise.Spec pre LineCall.validateCompleteLine (fun _ => pre) setting.Exceeded := by
  refine Raise.Spec.bind_get fun seen start => ?_
  have here := within seen start
  refine Raise.Spec.ite (fun exceeds => ?_) fun _ => Raise.Spec.pure fun _ same => same ▸ start
  refine lineFailWith_exceeded rfl (fun room => ?_) fun _ same => same ▸ here.books
  have spent := here.spent
  have frames := here.nonneg
  have enough := room.line
  rw [here.limits] at exceeds
  omega

end Room

/-! ### Extracting lines -/

/-- **In a call** the parser changes its line alone. -/
structure LineSetting.Framing (setting : LineSetting) (extra : Int) (parser : LineParser)
    (line : PyStr)
    (count : Nat) (call : LineCall) : Prop where
  within : setting.Within extra call
  letters : ∃ letters : List Char,
    line = letters.map Char.toNat ∧ call.parser.line = Utf8.encode letters
  same : call.parser =
    { parser with line := call.parser.line, pendingBudgetBytes := call.parser.pendingBudgetBytes }
  frames : count ≤ call.frames.length

section Extract

variable {setting : LineSetting} {extra : Int} {parser : LineParser} {line : PyStr} {count : Nat}

/-- The bytes of a text. -/
def encodedBytes (letters : List Char) : Int := (Utf8.encode letters).length

theorem encodedBytes_append (first second : List Char) :
    encodedBytes (first ++ second) = encodedBytes first + encodedBytes second := by
  rw [encodedBytes, Utf8.encode_append, List.length_append, Nat.cast_add]
  rfl

theorem encodedBytes_ascii {letter : Char} (ascii : letter.toNat < 0x80) : encodedBytes [letter] = 1 := by
  rw [encodedBytes, Utf8.encode_ascii, List.length_map]
  · rfl
  · exact fun other among => List.mem_singleton.mp among ▸ ascii

theorem encodedBytes_nonneg (letters : List Char) : 0 ≤ encodedBytes letters := Int.natCast_nonneg _

/-- **Reserving** counts the bytes of a text, or a limit is too small. -/
theorem reserve_within (remain : 0 ≤ setting.others) (segment : List Char) {call : LineCall}
    (within : setting.Within (extra + encodedBytes segment) call) (nonneg : 0 ≤ extra) :
    Raise.Spec (fun seen => seen = call) (ParserCall.onBudget (reserve (encodedBytes segment)))
      (fun _ after => after.parser = call.parser ∧ after.frames = call.frames ∧
        Counts setting.category (call.parser.line.length + charges call.frames + setting.others +
          encodedBytes segment) after.budget ∧
        (setting.alone →
          after.budget.memoryGovernor = none ∧ after.budget.capacityBytes = setting.capacity))
      setting.Exceeded := by
  have books := within.books
  have frames := within.nonneg
  have held := charges_nonneg books.frames
  have size := encodedBytes_nonneg segment
  have alone (isAlone : setting.alone) :
      (reserve (encodedBytes segment) call.budget).2.memoryGovernor = none ∧
      (reserve (encodedBytes segment) call.budget).2.capacityBytes = setting.capacity := by
    obtain ⟨alone, capacity⟩ := within.alone isAlone
    obtain ⟨none, same, -⟩ := reserve_alone (encodedBytes segment) alone
    exact ⟨none, same.trans capacity⟩
  have granted (room : setting.Room) : (reserve (encodedBytes segment) call.budget).1 = .ok () := by
    obtain ⟨alone, capacity⟩ := within.alone room.alone
    refine (reserve_alone _ alone).2.2 ?_
    have enough := room.capacity
    have spent := within.spent
    rw [books.counts.2.1, capacity]
    rw [frameBytes] at spent
    omega
  refine Raise.Spec.zoom fun state same => ?_
  subst same
  rintro budget rfl
  have counted := reserve_spec setting.category _ (encodedBytes segment)
      (by omega) state.budget books.counts
  cases outcome : reserve (encodedBytes segment) state.budget with
  | mk result after =>
    rw [outcome] at alone granted counted
    cases result with
    | ok value =>
      have size' : max (encodedBytes segment) 0 = encodedBytes segment := by omega
      refine ⟨rfl, rfl, ?_, alone⟩
      rw [← size']
      exact counted
    | error error =>
      obtain ⟨rfl, counts⟩ := counted
      refine ⟨⟨rfl, fun room => ?_⟩, books.balanced, books.valid, books.frames, counts⟩
      cases granted room

/-- **Appending** moves the bytes of the text to the line. -/
theorem appendLineText_frames (nonneg : 0 ≤ extra) (remain : 0 ≤ setting.others)
    (segment : List Char) :
    Raise.Spec (setting.Framing (extra + encodedBytes segment) parser line count)
      (LineCall.appendLineText (segment.map Char.toNat))
      (fun _ => setting.Framing extra parser (line ++ segment.map Char.toNat) count)
      setting.Exceeded := by
  by_cases empty : segment = []
  · subst empty
    rw [LineCall.appendLineText, if_pos (by rfl)]
    refine Raise.Spec.pure fun call framing => ?_
    rw [List.map_nil, List.append_nil]
    exact ⟨framing.within.less (by simp [encodedBytes]), framing.letters, framing.same, framing.frames⟩
  rw [LineCall.appendLineText, if_neg (by simpa using empty), Utf8.encodePoints_toNat]
  dsimp only
  intro call framing
  obtain ⟨before, isLine, lineBytes⟩ := framing.letters
  have books := framing.within.books
  have spent := framing.within.spent
  refine Raise.Spec.bind _ (reserve_within remain segment framing.within nonneg)
    (fun _ => ?_) call rfl
  refine Raise.Spec.bind (fun _ => setting.Framing extra parser
    (line ++ segment.map Char.toNat) count)
    (Raise.Spec.modify ?_) fun _ => validateCompleteLine_within nonneg fun _ framing =>
      framing.within
  rintro after ⟨sameParser, sameFrames, counts, alone⟩
  have longer : ((call.parser.line ++ Utf8.encode segment).length : Int) =
      call.parser.line.length + encodedBytes segment := by
    rw [List.length_append, Nat.cast_add]
    rfl
  refine ⟨⟨⟨?_, ?_, ?_, ?_⟩, ?_, ?_, alone⟩, ⟨before ++ segment, ?_, ?_⟩, ?_, ?_⟩
  · show after.parser.pendingBudgetBytes + _ = ((after.parser.line ++ _).length : Int)
    rw [sameParser, longer, books.balanced]
    rfl
  · refine ⟨before ++ segment, ?_⟩
    show after.parser.line ++ _ = _
    rw [sameParser, lineBytes, Utf8.encode_append]
  · show ∀ frame ∈ after.frames, _
    rw [sameFrames]
    exact books.frames
  · show Counts _ (((after.parser.line ++ _).length : Int) + charges after.frames + _) after.budget
    rw [sameParser, sameFrames, longer]
    rw [show (call.parser.line.length : Int) + encodedBytes segment + charges call.frames +
        setting.others =
      call.parser.line.length + charges call.frames + setting.others + encodedBytes segment by omega]
    exact counts
  · show after.parser.limits = _
    rw [sameParser]
    exact framing.within.limits
  · show ((after.parser.line ++ _).length : Int) + frameBytes after.frames + extra ≤ _
    rw [sameParser, sameFrames, longer]
    omega
  · rw [isLine, List.map_append]
  · show after.parser.line ++ _ = _
    rw [sameParser, lineBytes, Utf8.encode_append]
  · show { after.parser with
      pendingBudgetBytes := after.parser.pendingBudgetBytes + ((Utf8.encode segment).length : Int)
      line := after.parser.line ++ Utf8.encode segment } = _
    rw [sameParser, framing.same]
  · show count ≤ after.frames.length
    rw [sameFrames]
    exact framing.frames

/-- **Transferring** moves the line to a frame. -/
theorem transferLineFrame_frames :
    Raise.Spec (setting.Framing (extra + 1) parser line count) LineCall.transferLineFrame
      (fun frame call => frame = line ∧ setting.Framing extra parser [] (count + 1) call)
      setting.Exceeded := by
  refine Raise.Spec.bind_get fun seen framing => ?_
  obtain ⟨letters, isLine, lineBytes⟩ := framing.letters
  have books := framing.within.books
  have spent := framing.within.spent
  rw [lineBytes, Utf8.decodeAll_encode]
  dsimp only
  refine Raise.Spec.bind (fun _ => setting.Framing extra parser [] (count + 1))
    (Raise.Spec.modify ?_)
    fun _ => Raise.Spec.pure fun call done => ⟨isLine.symm, done⟩
  rintro call rfl
  have more : charges (call.frames ++ [RetainedTextFrame.new (letters.map Char.toNat)
      call.parser.pendingBudgetBytes]) = call.parser.line.length + charges call.frames := by
    rw [charges_new, books.balanced]
  refine ⟨⟨⟨rfl, ⟨[], rfl⟩, ?_, ?_⟩, framing.within.limits, ?_, framing.within.alone⟩,
    ⟨[], rfl, rfl⟩, ?_, ?_⟩
  · intro frame member
    rcases List.mem_append.mp member with before | new
    · exact books.frames frame before
    · rw [List.mem_singleton.mp new]
      show 0 ≤ call.parser.pendingBudgetBytes
      rw [books.balanced]
      exact Int.natCast_nonneg _
  · have counts := books.counts
    show Counts _ ((([] : Bytes).length : Int) + charges (call.frames ++ _) + _) call.budget
    rw [more, List.length_nil, Nat.cast_zero, zero_add]
    exact counts
  · show 0 + frameBytes (call.frames ++ [_]) + extra ≤ setting.total
    rw [frameBytes, more, List.length_append, List.length_singleton]
    rw [frameBytes] at spent
    push_cast
    omega
  · show { call.parser with pendingBudgetBytes := 0, line := [] } = _
    rw [framing.same]
  · show count + 1 ≤ (call.frames ++ _).length
    rw [List.length_append, List.length_singleton]
    exact Nat.succ_le_succ framing.frames

/-- **Extracting lines** is cutting at each LF. -/
theorem extractLines_frames (remain : 0 ≤ setting.others) (nonneg : 0 ≤ extra) (lines : List PyStr)
    (text segment : List Char) :
    Raise.Spec (setting.Framing (extra + encodedBytes text + encodedBytes segment) parser line
      (count + lines.length))
      (LineCall.extractLines (segment.map Char.toNat) lines (text.map Char.toNat))
      (fun result call =>
        let run := (cutLines lfPoint).run (line ++ segment.map Char.toNat) (text.map Char.toNat)
        result = lines ++ run.1 ∧ setting.Framing extra parser run.2 (count + result.length) call)
      setting.Exceeded := by
  induction text generalizing segment lines line with
  | nil =>
    refine Raise.Spec.bind (fun _ =>
        setting.Framing extra parser (line ++ segment.map Char.toNat) (count + lines.length))
      ((appendLineText_frames nonneg remain segment).weaken (fun call framing => ?_)
        (fun _ _ done => done) fun _ _ raised => raised)
      fun _ => Raise.Spec.pure fun call framing => ⟨(List.append_nil _).symm, framing⟩
    rwa [show extra + encodedBytes [] + encodedBytes segment = extra + encodedBytes segment by
      simp [encodedBytes]] at framing
  | cons letter rest ih =>
    have bytes : encodedBytes (letter :: rest) = encodedBytes [letter] + encodedBytes rest :=
      encodedBytes_append [letter] rest
    have more := encodedBytes_nonneg rest
    refine Raise.Spec.ite (fun isLf => ?_) fun notLf => ?_
    · have one : encodedBytes [letter] = 1 := encodedBytes_ascii (isLf ▸ by decide)
      have cut :
          (cutLines lfPoint).run (line ++ segment.map Char.toNat) ((letter :: rest).map Char.toNat) =
          ([line ++ segment.map Char.toNat] ++ ((cutLines lfPoint).run [] (rest.map Char.toNat)).1,
            ((cutLines lfPoint).run [] (rest.map Char.toNat)).2) := by
        rw [List.map_cons, isLf, Mealy.run_cons, cutLines_step_lf]
      refine Raise.Spec.bind
        (fun _ => setting.Framing (extra + encodedBytes rest + 1) parser
          (line ++ segment.map Char.toNat)
          (count + lines.length))
        ((appendLineText_frames (by omega) remain segment).weaken (fun call framing => ?_)
          (fun _ _ done => done) fun _ _ raised => raised) fun _ => ?_
      · rwa [bytes, one, show extra + (1 + encodedBytes rest) + encodedBytes segment =
          extra + encodedBytes rest + 1 + encodedBytes segment by omega] at framing
      refine Raise.Spec.bind _
        (validateCompleteLine_within (by omega) fun _ framing => framing.within) fun _ => ?_
      refine Raise.Spec.bind_get fun seen framing => Raise.Spec.ite (fun full => ?_) fun _ => ?_
      · refine lineFailWith_exceeded rfl (fun room => ?_) fun _ same => same ▸ framing.within.books
        have spent := framing.within.spent
        have frames := framing.within.nonneg
        have counted := framing.frames
        have enough := room.lines
        rw [framing.within.limits] at full
        omega
      · refine Raise.Spec.bind _ (transferLineFrame_frames.at framing) fun frame => ?_
        refine Raise.Spec.given fun isFrame => ?_
        subst isFrame
        have later := @ih [] (lines ++ [line ++ segment.map Char.toNat]) []
        rw [cut]
        refine later.weaken (fun call framing => ?_)
          (fun result call done => ?_) fun _ _ raised => raised
        · rw [List.length_append, List.length_singleton]
          exact ⟨framing.within.less (by simp [encodedBytes]), framing.letters, framing.same,
            framing.frames⟩
        · exact ⟨done.1.trans (List.append_assoc _ _ _), done.2⟩
    · have apart :
          (cutLines lfPoint).run (line ++ segment.map Char.toNat) ((letter :: rest).map Char.toNat) =
            (cutLines lfPoint).run (line ++ (segment ++ [letter]).map Char.toNat)
              (rest.map Char.toNat) := by
        rw [List.map_cons, Mealy.run_cons, cutLines_step_plain _ notLf, List.map_append,
          List.append_assoc]
        rfl
      have longer := @ih line lines (segment ++ [letter])
      rw [apart, ← List.map_singleton, ← List.map_append]
      refine longer.weaken (fun call framing => ?_) (fun _ _ done => done) fun _ _ raised => raised
      rwa [encodedBytes_append, show extra + encodedBytes rest + (encodedBytes segment + encodedBytes [letter]) =
        extra + encodedBytes (letter :: rest) + encodedBytes segment by omega]

end Extract

/-! ### The bytes of the stages -/

theorem leadingMark_letters (atStart : Bool) (letters : List Char) :
    ∃ bare : List Char, ((leadingMark bomPoint).run atStart (letters.map Char.toNat)).1 =
      bare.map Char.toNat ∧ encodedBytes bare ≤ encodedBytes letters := by
  cases atStart with
  | false => exact ⟨letters, by rw [leadingMark_run_false], Int.le_refl _⟩
  | true =>
    cases letters with
    | nil => exact ⟨[], rfl, Int.le_refl _⟩
    | cons first rest =>
      rw [leadingMark_text, List.map_cons, removeMark]
      by_cases isMark : first.toNat = bomPoint
      · refine ⟨rest, if_pos isMark, ?_⟩
        have more := encodedBytes_nonneg [first]
        have bytes := encodedBytes_append [first] rest
        rw [List.singleton_append] at bytes
        omega
      · exact ⟨first :: rest, if_neg isMark, Int.le_refl _⟩

/-- The letters of the ending of a CR that was held back. -/
def heldLetters (waiting : Bool) : List Char := if waiting then ['\n'] else []

theorem heldLetters_points (waiting : Bool) :
    heldEnding lfPoint waiting = (heldLetters waiting).map Char.toNat := by
  cases waiting <;> rfl

theorem heldLetters_bytes (waiting : Bool) :
    encodedBytes (heldLetters waiting) = if waiting then 1 else 0 := by
  cases waiting <;> decide

theorem waitingNewlines_letters (waiting : Bool) (letters : List Char) :
    let run := (waitingNewlines crPoint lfPoint).run waiting (letters.map Char.toNat)
    ∃ plain : List Char, run.1 = plain.map Char.toNat ∧
      encodedBytes plain + encodedBytes (heldLetters run.2) ≤
        encodedBytes letters + encodedBytes (heldLetters waiting) := by
  induction letters generalizing waiting with
  | nil => exact ⟨[], rfl, Int.le_refl _⟩
  | cons letter rest ih =>
    obtain ⟨plain, points, fewer⟩ := ih (decide (letter.toNat = crPoint))
    have bytes : encodedBytes (letter :: rest) = encodedBytes [letter] + encodedBytes rest :=
      encodedBytes_append [letter] rest
    have step : (waitingNewlines crPoint lfPoint).step waiting letter.toNat =
        ((heldLetters (waiting && letter.toNat != lfPoint) ++
            (if letter.toNat = crPoint then [] else [letter])).map Char.toNat,
          decide (letter.toNat = crPoint)) := by
      rw [List.map_append, ← heldLetters_points, apply_ite (List.map Char.toNat)]
      rfl
    have fromHeld : encodedBytes (heldLetters (waiting && letter.toNat != lfPoint)) ≤
        encodedBytes (heldLetters waiting) := by
      rw [heldLetters_bytes, heldLetters_bytes]
      cases waiting <;> grind
    have here : encodedBytes (if letter.toNat = crPoint then [] else [letter]) +
        encodedBytes (heldLetters (decide (letter.toNat = crPoint))) = encodedBytes [letter] := by
      by_cases isCr : letter.toNat = crPoint
      · rw [if_pos isCr, decide_eq_true isCr, encodedBytes_ascii (isCr ▸ by decide)]
        rfl
      · rw [if_neg isCr, decide_eq_false isCr]
        exact Int.add_zero _
    refine ⟨heldLetters (waiting && letter.toNat != lfPoint) ++
      (if letter.toNat = crPoint then [] else [letter]) ++ plain, ?_, ?_⟩
    · rw [List.map_cons, Mealy.run_cons, step, points, ← List.map_append]
    · rw [List.map_cons, Mealy.run_cons, step]
      dsimp only
      rw [encodedBytes_append, encodedBytes_append]
      omega

/-! ### Reading -/

/-- Where the parser is between two pieces, but for its line. -/
def LineParser.reading (limits : LineLimits) (held : Bytes) (stage : Bool × Bool × PyStr) :
    LineParser :=
  { LineParser.new limits with undecoded := held, pendingCr := stage.2.1, atStreamStart := stage.1 }

/-- **Between two pieces**: the parser holds `held` and is where the machine is, and `later` more
bytes come. -/
def LineSetting.Reading (setting : LineSetting) (later : Int) (held : Bytes)
    (stage : Bool × Bool × PyStr) (count : Nat) : LineCall → Prop :=
  setting.Framing (later + held.length + encodedBytes (heldLetters stage.2.1))
    (LineParser.reading setting.limits held stage) stage.2.2 count

section Reading

variable {setting : LineSetting} {extra later : Int} {parser : LineParser} {line : PyStr}
  {count : Nat}

theorem LineSetting.Framing.put {call : LineCall}
    (framing : setting.Framing extra parser line count call) {after changed : LineParser}
    (limits : after.limits = setting.limits)
    (same : changed = { after with
      line := call.parser.line, pendingBudgetBytes := call.parser.pendingBudgetBytes }) :
    setting.Framing extra after line count { call with parser := changed } := by
  subst same
  exact ⟨⟨framing.within.books.of_sameParser rfl rfl, limits, framing.within.spent,
    framing.within.alone⟩, framing.letters, rfl, framing.frames⟩

theorem LineSetting.Framing.less {less : Int} {call : LineCall}
    (framing : setting.Framing extra parser line count call) (fewer : less ≤ extra) :
    setting.Framing less parser line count call :=
  ⟨framing.within.less fewer, framing.letters, framing.same, framing.frames⟩

/-- **Decoding** a piece that is UTF-8. -/
theorem lineDecode_frames {held rest piece : Bytes} {text : PyStr}
    (isHeld : parser.undecoded = held) (limits : parser.limits = setting.limits)
    (decoded : Utf8.decode held piece = some (text, rest)) :
    Raise.Spec (setting.Framing extra parser line count) (LineCall.decode (.bytes piece))
      (fun result call => result = text ∧
        setting.Framing extra { parser with undecoded := rest } line count call)
      setting.Exceeded := by
  intro call framing
  have same : call.parser.undecoded = held := by
    rw [framing.same]
    exact isHeld
  have after : LineCall.decode (.bytes piece) call =
      (.ok text, { call with parser := { call.parser with undecoded := rest } }) := by
    rw [LineCall.decode, Raise.bind_apply, Raise.get_apply]
    dsimp only
    rw [same, decoded]
    rfl
  rw [after]
  exact ⟨rfl, framing.put limits (by rw [framing.same])⟩

/-- **The two text stages** on a piece of text. -/
theorem lineNormalizedText_frames (limits : parser.limits = setting.limits) (text : PyStr) :
    let bare := (leadingMark bomPoint).run parser.atStreamStart text
    let plain := (waitingNewlines crPoint lfPoint).run parser.pendingCr bare.1
    Raise.Spec (setting.Framing extra parser line count) (LineCall.normalizedText text false)
      (fun result call => result = plain.1 ∧ setting.Framing extra
        { parser with atStreamStart := bare.2, pendingCr := plain.2 } line count call)
      setting.Exceeded := by
  intro bare plain call framing
  have atStart : call.parser.atStreamStart = parser.atStreamStart := by rw [framing.same]
  have waiting : call.parser.pendingCr = parser.pendingCr := by rw [framing.same]
  have after : LineCall.normalizedText text false call =
      (.ok plain.1, { call with
        parser := { call.parser with atStreamStart := bare.2, pendingCr := plain.2 } }) := by
    rw [LineCall.normalizedText, Raise.update_apply]
    simp only [LineParser.stripInitialBom_eq, LineParser.normalizeNewlines_eq, atStart, waiting]
    rfl
  rw [after]
  exact ⟨rfl, framing.put limits (by rw [framing.same])⟩

/-- **A piece** is read as its text, in front of the rest of a call. -/
theorem linePiece_frames {α : Type} (remain : 0 ≤ setting.others) (nonneg : 0 ≤ later)
    {held rest piece : Bytes} {text : PyStr} (stage : Bool × Bool × PyStr) (isHeld : Utf8.Held held)
    (decoded : Utf8.decode held piece = some (text, rest)) {next : List PyStr → LineCall.Run α}
    {post : α → LineCall → Prop}
    (goesOn : ∀ extracted, Raise.Spec (fun call => extracted = (lineMachine.run stage text).1 ∧
        setting.Reading later rest (lineMachine.run stage text).2 (count + extracted.length) call)
      (next extracted) post setting.Exceeded) :
    Raise.Spec (setting.Reading (later + piece.length) held stage count)
      (do
        let decoded ← LineCall.decode (.bytes piece)
        let normalized ← LineCall.normalizedText decoded false
        let extracted ← LineCall.extractLines [] [] normalized
        next extracted)
      post setting.Exceeded := by
  obtain ⟨-, letters, rfl, bytes⟩ := Utf8.decode_sound isHeld decoded
  have spent : (held.length : Int) + piece.length = encodedBytes letters + rest.length := by
    have same := congrArg List.length bytes
    rw [List.length_append, List.length_append] at same
    rw [encodedBytes]
    omega
  refine Raise.Spec.bind _ (@lineDecode_frames setting (later + piece.length + held.length +
    encodedBytes (heldLetters stage.2.1)) (LineParser.reading setting.limits held stage) stage.2.2 count
    held rest piece _ rfl rfl decoded) fun text => Raise.Spec.given fun isText => ?_
  subst isText
  refine Raise.Spec.bind _ (lineNormalizedText_frames (by rfl) _) fun normalized =>
    Raise.Spec.given fun isPlain => ?_
  obtain ⟨bare, barePoints, bareBytes⟩ := leadingMark_letters stage.1 letters
  obtain ⟨plain, plainPoints, plainBytes⟩ := waitingNewlines_letters stage.2.1 bare
  have normal : normalized = plain.map Char.toNat := by
    rw [isPlain, ← plainPoints, ← barePoints]
    rfl
  rw [normal]
  rw [← barePoints] at plainPoints plainBytes
  refine Raise.Spec.bind _ ?_ goesOn
  rw [lineMachine_run stage, plainPoints]
  obtain ⟨started, isStarted⟩ : ∃ started,
    ((leadingMark bomPoint).run stage.1 (letters.map Char.toNat)).2 = started := ⟨_, rfl⟩
  obtain ⟨waits, isWaits⟩ : ∃ waits, ((waitingNewlines crPoint lfPoint).run stage.2.1
    ((leadingMark bomPoint).run stage.1 (letters.map Char.toNat)).1).2 = waits := ⟨_, rfl⟩
  rw [isWaits] at plainBytes
  have more := encodedBytes_nonneg (heldLetters waits)
  have extracted := @extractLines_frames setting
    (later + rest.length + encodedBytes (heldLetters waits))
    (LineParser.reading setting.limits rest (started, waits, [])) stage.2.2 count remain
      (by omega) [] plain []
  refine extracted.weaken (fun call framing => ?_)
    (fun result call done => ?_) fun _ _ raised => raised
  · rw [show LineParser.reading setting.limits rest (started, waits, []) =
      { LineParser.reading setting.limits held stage with
        undecoded := rest, atStreamStart := started, pendingCr := waits } from rfl,
          ← isStarted, ← isWaits]
    refine framing.less ?_
    rw [isWaits, show encodedBytes [] = 0 from rfl]
    omega
  · rw [List.map_nil, List.append_nil] at done
    rw [isStarted, isWaits]
    exact done

theorem decode_parts {held first second rest : Bytes} {text : PyStr}
    (decoded : Utf8.decode held (first ++ second) = some (text, rest)) :
    ∃ before middle after, Utf8.decode held first = some (before, middle) ∧
      Utf8.decode middle second = some (after, rest) ∧ text = before ++ after := by
  rw [Utf8.decode_append, Option.bind_eq_bind, Option.bind_eq_some_iff] at decoded
  obtain ⟨⟨before, middle⟩, here, decoded⟩ := decoded
  obtain ⟨⟨after, last⟩, later, same⟩ := Option.bind_eq_some_iff.mp decoded
  cases same
  exact ⟨before, middle, after, here, later, rfl⟩

theorem validatePending_frames (nonneg : 0 ≤ later) {held : Bytes} {stage : Bool × Bool × PyStr} :
    Raise.Spec (setting.Reading later held stage count) LineCall.validatePending
      (fun _ => setting.Reading later held stage count) setting.Exceeded := by
  refine Raise.Spec.bind_get fun seen reading => ?_
  refine Raise.Spec.ite (fun exceeds => ?_) fun _ => Raise.Spec.pure fun _ same => same ▸ reading
  refine lineFailWith_exceeded rfl (fun room => ?_) fun _ same => same ▸ reading.within.books
  have spent := reading.within.spent
  have frames := reading.within.nonneg
  have enough := room.line
  rw [reading.within.limits, LineParser.pendingBytes,
    show seen.parser.pendingCr = stage.2.1 by rw [reading.same]; rfl,
    show seen.parser.undecoded = held by rw [reading.same]; rfl] at exceeds
  rw [heldLetters_bytes] at spent
  split_ifs at exceeds spent <;> omega

/-- **The loop over the pieces** reads their text. -/
theorem lineFeedLoop_frames (remain : 0 ≤ setting.others) (nonneg : 0 ≤ later) {held rest : Bytes}
    {pieces : List Bytes} {text : PyStr} (stage : Bool × Bool × PyStr) (isHeld : Utf8.Held held)
    (decoded : Utf8.decode held pieces.flatten = some (text, rest)) (lines : List PyStr) :
    Raise.Spec (setting.Reading (later + pieces.flatten.length) held stage (count + lines.length))
      (LineCall.feedLoop (pieces.map .bytes) lines)
      (fun result call => result = lines ++ (lineMachine.run stage text).1 ∧
        setting.Reading later rest (lineMachine.run stage text).2 (count + result.length) call)
      setting.Exceeded := by
  induction pieces generalizing held stage text lines with
  | nil =>
    cases decoded
    refine Raise.Spec.pure fun call reading => ⟨(List.append_nil _).symm, ?_⟩
    rwa [List.flatten_nil, List.length_nil, Nat.cast_zero, add_zero] at reading
  | cons piece pieces ih =>
    rw [List.flatten_cons] at decoded ⊢
    obtain ⟨before, middle, after, here, afterwards, rfl⟩ := decode_parts decoded
    obtain ⟨middleHeld, -⟩ := Utf8.decode_sound isHeld here
    have bytes : later + ((piece ++ pieces.flatten).length : Int) =
        later + pieces.flatten.length + piece.length := by
      rw [List.length_append]
      omega
    rw [bytes]
    refine linePiece_frames remain (by omega) stage isHeld here fun extracted => ?_
    refine Raise.Spec.given fun isExtracted => ?_
    refine Raise.Spec.bind_get fun seen reading => Raise.Spec.ite (fun exceeds => ?_) fun _ => ?_
    · refine lineFailWith_exceeded rfl (fun room => ?_) fun _ same => same ▸ reading.within.books
      have spent := reading.within.spent
      have frames := reading.within.nonneg
      have counted := reading.frames
      have enough := room.lines
      have more := encodedBytes_nonneg (heldLetters (lineMachine.run stage before).2.2.1)
      rw [reading.within.limits] at exceeds
      omega
    · refine Raise.Spec.bind _ ((validatePending_frames (by omega)).at reading) fun _ => ?_
      have later := ih (lineMachine.run stage before).2 middleHeld afterwards (lines ++ extracted)
      rw [Mealy.run_append]
      refine later.weaken (fun call reading => ?_)
        (fun result call done => ?_) fun _ _ raised => raised
      · rwa [List.length_append, ← Nat.add_assoc]
      · rw [isExtracted, List.append_assoc] at done
        exact done

/-! ### The calls -/

theorem lineAbandon_exceeded {α : Type} (remain : 0 ≤ setting.others) {post : α → LineCall → Prop}
    (error : StreamError) :
    Raise.Spec (setting.Exceeded error) (LineCall.abandon error) post setting.Exceeded := by
  refine Raise.Spec.given fun reason => ?_
  refine Raise.Spec.bind (fun _ => LineBooks setting.category setting.others)
    (Raise.Spec.modify ?_) fun _ => ?_
  · exact fun call books => books.of_sameParser rfl rfl
  refine Raise.Spec.bind _ ((clearPendingLine_spec remain).raising
    fun _ _ impossible => impossible.elim) fun _ => ?_
  exact Raise.Spec.throw fun _ books => ⟨reason, books⟩

/-- **`feed` reads its chunk.** -/
theorem lineFeed_frames (remain : 0 ≤ setting.others) (nonneg : 0 ≤ later) {held rest chunk : Bytes}
    {text : PyStr} (stage : Bool × Bool × PyStr) (isHeld : Utf8.Held held)
    (decoded : Utf8.decode held chunk = some (text, rest)) :
    Raise.Spec (setting.Reading (later + chunk.length) held stage count)
      (LineCall.feed (.bytes chunk))
      (fun lines call => lines = (lineMachine.run stage text).1 ∧
        setting.Reading later rest (lineMachine.run stage text).2 (count + lines.length) call)
      setting.Exceeded := by
  refine Raise.Spec.bind_get fun seen reading => ?_
  refine Raise.Spec.ite (fun finished => ?_) fun _ => Raise.Spec.ite (fun failed => ?_) fun _ => ?_
  · rw [show seen.parser.finished = false by rw [reading.same]; rfl] at finished
    cases finished
  · rw [show seen.parser.failed = false by rw [reading.same]; rfl] at failed
    cases failed
  refine Raise.Spec.tryExcept setting.Exceeded ?_ fun error => lineAbandon_exceeded remain error
  refine Raise.Spec.bind (fun _ => setting.Reading (later + chunk.length) held stage count) ?_
    fun _ => ?_
  · refine Raise.Spec.bind_get_at ?_
    refine Raise.Spec.ite (fun exceeds => ?_) fun _ => Raise.Spec.pure fun _ same => same ▸ reading
    refine lineFailWith_exceeded rfl (fun room => ?_) fun _ same => same ▸ reading.within.books
    have spent := reading.within.spent
    have frames := reading.within.nonneg
    have enough := room.feed
    have more := encodedBytes_nonneg (heldLetters stage.2.1)
    rw [reading.within.limits] at exceeds
    omega
  · have whole : (blocks internalFeedChunkUnits chunk.length chunk).flatten = chunk :=
      blocks_flatten _ _ _ (Nat.le_refl chunk.length)
    have looped := @lineFeedLoop_frames setting later count remain nonneg held rest
      (blocks internalFeedChunkUnits chunk.length chunk) text stage isHeld (by rwa [whole]) []
    rw [whole] at looped
    exact looped

/-- The text stages at the end give the ending that was held back. -/
theorem lineNormalizedText_final (limits : parser.limits = setting.limits) :
    Raise.Spec (setting.Framing extra parser line count) (LineCall.normalizedText [] true)
      (fun result call => result = heldEnding lfPoint parser.pendingCr ∧ setting.Framing extra
        { parser with atStreamStart := false, pendingCr := false } line count call)
      setting.Exceeded := by
  intro call framing
  have waiting : call.parser.pendingCr = parser.pendingCr := by rw [framing.same]
  have stripped : call.parser.stripInitialBom [] true =
      ([], { call.parser with atStreamStart := false }) := by
    unfold LineParser.stripInitialBom
    cases start : call.parser.atStreamStart with
    | false =>
      have unchanged : { call.parser with atStreamStart := false } = call.parser := by rw [← start]
      simp [unchanged]
    | true => simp [removeMark]
  have after : LineCall.normalizedText [] true call =
      (.ok (heldEnding lfPoint parser.pendingCr), { call with
        parser := { call.parser with atStreamStart := false, pendingCr := false } }) := by
    rw [LineCall.normalizedText, Raise.update_apply]
    simp only [stripped]
    rw [← waiting]
    cases call.parser.pendingCr <;>
      simp [LineParser.normalizeNewlines, normalizeLines, replaceCr, replaceCrLf, heldEnding]
  rw [after]
  exact ⟨rfl, framing.put limits (by rw [framing.same])⟩

theorem transferLineFrame_last :
    Raise.Spec (setting.Framing extra parser line count) LineCall.transferLineFrame
      (fun frame _ => frame = line) setting.Exceeded := by
  refine Raise.Spec.bind_get fun seen framing => ?_
  obtain ⟨letters, isLine, lineBytes⟩ := framing.letters
  rw [lineBytes, Utf8.decodeAll_encode]
  exact Raise.Spec.bind (fun _ _ => True) (Raise.Spec.modify fun _ _ => trivial)
    fun _ => Raise.Spec.pure fun _ _ => isLine.symm

/-- **`finish` gives the lines that are left.** -/
theorem lineFinish_frames (remain : 0 ≤ setting.others) (stage : Bool × Bool × PyStr) :
    Raise.Spec (setting.Reading 0 [] stage count) LineCall.finish
      (fun lines _ => lines = lastLines stage) setting.Exceeded := by
  refine Raise.Spec.bind_get fun seen reading => ?_
  refine Raise.Spec.ite (fun failed => ?_) fun _ => Raise.Spec.ite (fun finished => ?_) fun _ => ?_
  · rw [show seen.parser.failed = false by rw [reading.same]; rfl] at failed
    cases failed
  · rw [show seen.parser.finished = false by rw [reading.same]; rfl] at finished
    cases finished
  refine Raise.Spec.bind (fun _ => setting.Framing (0 + encodedBytes (heldLetters stage.2.1))
    { LineParser.reading setting.limits [] stage with finished := true } stage.2.2 (count + 0))
    (Raise.Spec.modify ?_) fun _ => ?_
  · rintro call rfl
    exact (reading.put rfl (by rw [reading.same])).less (by rw [List.length_nil]; omega)
  refine Raise.Spec.tryExcept setting.Exceeded ?_ fun error => lineAbandon_exceeded remain error
  refine Raise.Spec.bind_get fun held framing => ?_
  refine Raise.Spec.ite (fun incomplete => ?_) fun _ => ?_
  · rw [show held.parser.undecoded = [] by rw [framing.same]; rfl] at incomplete
    exact absurd rfl incomplete
  refine Raise.Spec.bind _ ((lineNormalizedText_final (by rfl)).at framing) fun ending =>
    Raise.Spec.given fun isEnding => ?_
  have points : ending = (heldLetters stage.2.1).map Char.toNat := by
    rw [isEnding, ← heldLetters_points]
    rfl
  rw [points]
  refine Raise.Spec.bind _ ((extractLines_frames remain (Int.le_refl 0) []
    (heldLetters stage.2.1) []).weaken
    (fun call framing => framing.less (Int.le_of_eq (Int.add_zero _)))
    (fun _ _ done => done) fun _ _ raised => raised) fun lines => ?_
  refine Raise.Spec.given fun isLines => ?_
  rw [List.map_nil, List.append_nil, ← heldLetters_points] at isLines ⊢
  rw [List.nil_append] at isLines
  refine Raise.Spec.bind_get fun last framing => ?_
  obtain ⟨letters, isLine, lineBytes⟩ := framing.letters
  refine Raise.Spec.ite (fun empty => ?_) fun nonempty => ?_
  · refine Raise.Spec.pure fun _ _ => ?_
    have none : letters = [] := by
      cases letters with
      | nil => rfl
      | cons letter rest =>
        rw [lineBytes, Utf8.encode_cons] at empty
        exact absurd (List.append_eq_nil_iff.mp empty).1 (utf8_keepsLineEndings.nonempty letter)
    rw [lastLines, isLine, none, isLines]
    exact (List.append_nil _).symm
  · refine Raise.Spec.bind _ ((validateCompleteLine_within (Int.le_refl 0)
      fun _ framing => framing.within).at framing) fun _ => ?_
    refine Raise.Spec.bind _ transferLineFrame_last fun frame => Raise.Spec.pure fun _ isFrame => ?_
    have some : letters ≠ [] := by
      rintro rfl
      exact nonempty lineBytes
    rw [lastLines, isLine, lastLine, if_neg (by simpa using some), ← isLine, isLines, isFrame]

/-- `feed` of each chunk, then `finish`: all the lines. -/
def LineCall.feedAll : List Bytes → LineCall.Run (List PyStr)
  | [] => LineCall.finish
  | chunk :: chunks => do
    let lines ← LineCall.feed (.bytes chunk)
    let later ← feedAll chunks
    return lines ++ later

/-- **The chunks give the lines of their text.** -/
theorem feedAll_frames (remain : 0 ≤ setting.others) (chunks : List Bytes) {held : Bytes}
    {text : PyStr} (stage : Bool × Bool × PyStr) (isHeld : Utf8.Held held)
    (decoded : Utf8.decode held chunks.flatten = some (text, [])) :
    Raise.Spec (setting.Reading chunks.flatten.length held stage count) (LineCall.feedAll chunks)
      (fun lines _ =>
        lines = (lineMachine.run stage text).1 ++ lastLines (lineMachine.run stage text).2)
      setting.Exceeded := by
  induction chunks generalizing held stage text count with
  | nil =>
    cases decoded
    exact lineFinish_frames remain stage
  | cons chunk chunks ih =>
    rw [List.flatten_cons] at decoded ⊢
    obtain ⟨before, middle, after, here, afterwards, rfl⟩ := decode_parts decoded
    obtain ⟨middleHeld, -⟩ := Utf8.decode_sound isHeld here
    have bytes :
        ((chunk ++ chunks.flatten).length : Int) = chunks.flatten.length + chunk.length := by
      rw [List.length_append]
      omega
    rw [bytes]
    refine Raise.Spec.bind _ (lineFeed_frames remain (by omega) stage isHeld here) fun lines =>
      Raise.Spec.given fun isLines => ?_
    refine Raise.Spec.bind _ (ih (lineMachine.run stage before).2 middleHeld afterwards)
      fun later => Raise.Spec.pure fun _ isLater => ?_
    rw [Mealy.run_append, isLater, isLines, List.append_assoc]

end Reading

/-! ### Chunked and whole -/

/-- A fresh parser at a budget. -/
def LineCall.fresh (limits : LineLimits) (budget : RetainedBudget) : LineCall :=
  { parser := LineParser.new limits, budget, frames := [] }

/-- A stream of `total` bytes through a fresh parser. -/
def LineSetting.of (limits : LineLimits) (budget : RetainedBudget) (total : Nat) : LineSetting where
  category := budget.memoryCategory
  others := budget.usedBytes
  limits := limits
  capacity := budget.capacityBytes
  alone := budget.memoryGovernor = none
  total := total

theorem reading_fresh (limits : LineLimits) {budget : RetainedBudget}
    (consistent : budget.Consistent) (total : Nat) :
    (LineSetting.of limits budget total).Reading total [] (true, false, []) 0
      (LineCall.fresh limits budget) where
  within := {
    books := ⟨rfl, ⟨[], rfl⟩, nofun, rfl, (Int.zero_add _).symm, consistent.2⟩
    limits := rfl
    spent := by simp [LineCall.fresh, LineParser.new, frameBytes, charges, heldLetters,
      encodedBytes, LineSetting.of]
    alone := fun alone => ⟨alone, rfl⟩ }
  letters := ⟨[], rfl, rfl⟩
  same := rfl
  frames := Nat.le_refl 0

/-- **The cuts of a stream do not show in its lines**: cut anywhere, the bytes of a text give its
lines, or a limit is reached. The limits are not reached where each is as large as the bytes. -/
theorem lines_split_invariant (limits : LineLimits) (budget : RetainedBudget)
    (consistent : budget.Consistent) (chunks : List Bytes) (letters : List Char)
    (text : chunks.flatten = Utf8.encode letters) :
    let outcome := (LineCall.feedAll chunks (LineCall.fresh limits budget)).1
    (outcome = .ok (lineReference (letters.map Char.toNat)) ∨
        ∃ error, outcome = .error error ∧ error.isResource = true) ∧
      ((LineSetting.of limits budget chunks.flatten.length).Room →
        outcome = .ok (lineReference (letters.map Char.toNat))) := by
  intro outcome
  have read := @feedAll_frames (LineSetting.of limits budget chunks.flatten.length) 0 consistent.1
    chunks [] (letters.map Char.toNat) (true, false, []) Utf8.held_nil
    (by rw [text, Utf8.decode_encode]) (LineCall.fresh limits budget)
    (reading_fresh limits consistent chunks.flatten.length)
  rw [lineMachine_reference] at read
  cases returned : LineCall.feedAll chunks (LineCall.fresh limits budget) with
  | mk result after =>
    have isOutcome : outcome = result := congrArg Prod.fst returned
    rw [returned] at read
    rw [isOutcome]
    cases result with
    | ok lines =>
      have isLines : lines = lineReference (letters.map Char.toNat) := read
      rw [isLines]
      exact ⟨.inl rfl, fun _ => rfl⟩
    | error error =>
      obtain ⟨⟨resource, short⟩, -⟩ := read
      exact ⟨.inr ⟨error, rfl, resource⟩, fun room => absurd room short⟩

/-- A mark, a CRLF, a two-byte letter and a lone CR, each cut in the middle or from what follows. -/
theorem lines_split_invariant_cut :
    (LineCall.feedAll [[0xEF, 0xBB], [0xBF, 0x61, 0x0D], [0x0A, 0xC3], [], [0xA9, 0x0D],
      [0x0D, 0x62]]
        (LineCall.fresh ⟨64, 64, 64, by decide, by decide, by decide⟩
          (RetainedBudget.fresh 1000 none "stream_parser"))).1 =
      .ok [[0x61], [0xE9], [], [0x62]] :=
  (lines_split_invariant ⟨64, 64, 64, by decide, by decide, by decide⟩
    (RetainedBudget.fresh 1000 none "stream_parser") (consistent_fresh 1000 _)
    [[0xEF, 0xBB], [0xBF, 0x61, 0x0D], [0x0A, 0xC3], [], [0xA9, 0x0D], [0x0D, 0x62]]
    ['\uFEFF', 'a', '\r', '\n', 'é', '\r', '\r', 'b'] (by decide +kernel)).2
    ⟨by decide, by decide, by decide, rfl, by decide⟩

end UniApi.Streaming
