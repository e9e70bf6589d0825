/-
**What the calls of an `IncrementalSSEParser` do.**

Each call is specified once, for its frames and for its bytes together:

* `textMachine` and `sseMachine` are the stages of the parser as machines: decode, drop a leading
  U+FEFF, turn every line ending into LF, cut at blank lines;
* `Books` is the balance between calls: the budget counts the partial event, the frames alive and
  what others hold;
* `extractEvents_spec`, `feedPiece_spec`, `feed_spec`: a call that returns has run the machine and
  keeps the books; a call that raises keeps the books, and raises a limit, a refused reservation or
  a refused text;
* `finish_spec`: how a stream ends is read off the state of the machine.
-/

import UniApi.Streaming.SseParser
import UniApi.Lib.Totals

namespace UniApi.Streaming

open UniApi.Lib RetainedBudget

/-! ### The stages as machines -/

/-- The stages behind the decoder. The state: whether the stream is at its start, whether the last
line ending was a CR, and the event collected. -/
def textMachine : Mealy (Bool × Bool × PyStr) CodePoint PyStr :=
  (leadingMark bomPoint).cascade ((newlines crPoint lfPoint).cascade (blankLines lfPoint))

/-- All stages. The decoder comes first. -/
def sseMachine : Mealy (Option Bytes × Bool × Bool × PyStr) UInt8 PyStr :=
  Utf8.decoder.cascade textMachine

namespace SseParser

/-- `pending_text`. -/
def pendingText (parser : SseParser) : PyStr := (Utf8.decodeAll parser.event).getD []

/-- The state of `textMachine` a parser is in. -/
def stage (parser : SseParser) : Bool × Bool × PyStr :=
  (parser.atStreamStart, parser.trailingCr, parser.pendingText)

/-- The state of `sseMachine` a parser is in. -/
def state (parser : SseParser) : Option Bytes × Bool × Bool × PyStr :=
  (some parser.undecoded, parser.stage)

/-- The decoder holds the start of a character, and the event is UTF-8. -/
structure Sound (parser : SseParser) : Prop where
  held : Utf8.Held parser.undecoded
  valid : Utf8.Valid parser.event

/-- The parser takes input. -/
structure Running (parser : SseParser) : Prop where
  notFinished : parser.finished = false
  notFailed : parser.failed = false

/-- The parser with another event, and the bytes of it charged. -/
def holding (parser : SseParser) (event : Bytes) : SseParser :=
  { parser with event, pendingBudgetBytes := event.length }

@[simp] theorem holding_event (parser : SseParser) (event : Bytes) :
    (parser.holding event).event = event := rfl

@[simp] theorem holding_pendingBudgetBytes (parser : SseParser) (event : Bytes) :
    (parser.holding event).pendingBudgetBytes = event.length := rfl

@[simp] theorem holding_limits (parser : SseParser) (event : Bytes) :
    (parser.holding event).limits = parser.limits := rfl

@[simp] theorem holding_undecoded (parser : SseParser) (event : Bytes) :
    (parser.holding event).undecoded = parser.undecoded := rfl

theorem holding_self {parser : SseParser}
    (charged : parser.pendingBudgetBytes = parser.event.length) :
    parser.holding parser.event = parser := by
  unfold holding
  rw [← charged]

theorem pendingText_encode {parser : SseParser} {letters : List Char}
    (same : parser.event = Utf8.encode letters) :
    parser.pendingText = letters.map Char.toNat := by
  rw [pendingText, same, Utf8.decodeAll_encode]
  rfl

theorem sound_new (limits : SseLimits) : (new limits).Sound := ⟨Utf8.held_nil, [], rfl⟩

theorem running_new (limits : SseLimits) : (new limits).Running := ⟨rfl, rfl⟩

theorem stripInitialBom_eq (text : PyStr) (parser : SseParser) :
    parser.stripInitialBom text false =
      (((leadingMark bomPoint).run parser.atStreamStart text).1,
        { parser with
          atStreamStart := ((leadingMark bomPoint).run parser.atStreamStart text).2 }) := by
  unfold stripInitialBom
  cases start : parser.atStreamStart with
  | false =>
    have unchanged : { parser with atStreamStart := false } = parser := by rw [← start]
    simp [leadingMark_run_false, unchanged]
  | true =>
    by_cases empty : text = []
    · simp [empty, ← start]
    · simp [empty, leadingMark_run bomPoint text empty]

theorem normalizeNewlines_eq (text : PyStr) (parser : SseParser) :
    parser.normalizeNewlines text false =
      (((newlines crPoint lfPoint).run parser.trailingCr text).1,
        { parser with trailingCr := ((newlines crPoint lfPoint).run parser.trailingCr text).2 }) := by
  have different : crPoint ≠ lfPoint := by decide
  have fromPlain : ∀ rest : PyStr, (if rest.getLast? = some crPoint then true else false) =
      ((newlines crPoint lfPoint).run false rest).2 := by
    intro rest
    by_cases empty : rest = []
    · rw [empty]
      rfl
    · rw [newlines_run_state rest empty]
      split <;> simp_all
  unfold normalizeNewlines
  by_cases empty : text = []
  · simp [empty, normalizeLines, replaceCr, replaceCrLf]
  · cases swallow : parser.trailingCr with
    | false => simp [← fromPlain, newlines_run different]
    | true =>
      have later := newlines_run_true different text
      simp [empty, later.1, later.2 empty, ← fromPlain, newlines_run different]

end SseParser

/-! ### The balance -/

/-- What the frames hold. -/
def charges (frames : List RetainedTextFrame) : Int := total RetainedTextFrame.charge frames

theorem charges_nonneg {frames : List RetainedTextFrame}
    (each : ∀ frame ∈ frames, 0 ≤ frame.charge) : 0 ≤ charges frames :=
  total_nonneg _ each

theorem charges_new (frames : List RetainedTextFrame) (text : PyStr) (retainedBytes : Int) :
    charges (frames ++ [RetainedTextFrame.new text retainedBytes]) = retainedBytes + charges frames := by
  simp [charges, RetainedTextFrame.charge, RetainedTextFrame.new, Int.add_comm]

/-- The budget counts what the parser has charged, what the frames hold, and `others`. -/
structure Charged (category : String) (others : Int) (call : SseCall) : Prop where
  pending : 0 ≤ call.parser.pendingBudgetBytes
  frames : ∀ frame ∈ call.frames, 0 ≤ frame.charge
  counts : Counts category (call.parser.pendingBudgetBytes + charges call.frames + others) call.budget

/-- **The books balance**: what the parser has charged is the bytes of its event. -/
structure Books (category : String) (others : Int) (call : SseCall) : Prop
    extends Charged category others call where
  balanced : call.parser.pendingBudgetBytes = call.parser.event.length

variable {error : StreamError} {parser : SseParser} {call : SseCall}

theorem Charged.of_sameParser {category : String} {others : Int}
    (charged : Charged category others call)
    (same : parser.pendingBudgetBytes = call.parser.pendingBudgetBytes) :
    Charged category others { call with parser } where
  pending := by
    rw [same]
    exact charged.pending
  frames := charged.frames
  counts := by
    simp only [same]
    exact charged.counts

/-- A change of the parser that moves what it has charged to the others. -/
theorem Charged.moved {category : String} {others others' : Int}
    (charged : Charged category others call)
    (nonneg : 0 ≤ parser.pendingBudgetBytes)
    (same : parser.pendingBudgetBytes + others' = call.parser.pendingBudgetBytes + others) :
    Charged category others' { call with parser } where
  pending := nonneg
  frames := charged.frames
  counts := by
    have total : parser.pendingBudgetBytes + charges call.frames + others' =
        call.parser.pendingBudgetBytes + charges call.frames + others := by omega
    simp only [total]
    exact charged.counts

theorem Books.of_sameParser {category : String} {others : Int}
    (books : Books category others call) (event : parser.event = call.parser.event)
    (pending : parser.pendingBudgetBytes = call.parser.pendingBudgetBytes) :
    Books category others { call with parser } where
  toCharged := books.toCharged.of_sameParser pending
  balanced := by
    rw [pending, event]
    exact books.balanced

/-- What a call leaves that raises because of a limit or a refused reservation. -/
def Exhausted (category : String) (others : Int) (error : StreamError) (call : SseCall) : Prop :=
  error.isResource = true ∧ Books category others call

section Calls

variable {category : String} {others : Int} {parser : SseParser} {pre : SseCall → Prop}

theorem failWith_spec {α : Type} {post : α → SseCall → Prop}
    (books : ∀ call, pre call → Books category others call) :
    Raise.Spec pre (SseCall.failWith error) post
      (fun raised call => raised = error ∧ Books category others call) :=
  fun call start => ⟨rfl, (books call start).of_sameParser rfl rfl⟩

theorem failWith_exhausted {α : Type} {post : α → SseCall → Prop}
    (resource : error.isResource = true) (books : ∀ call, pre call → Books category others call) :
    Raise.Spec pre (SseCall.failWith error) post (Exhausted category others) :=
  (failWith_spec books).raising fun _ _ raised => ⟨raised.1 ▸ resource, raised.2⟩

/-- A check that fails only on a limit, and changes nothing otherwise. -/
theorem validatePendingSize_spec (books : ∀ call, pre call → Books category others call) :
    Raise.Spec pre SseCall.validatePendingSize (fun _ => pre) (Exhausted category others) := by
  refine Raise.Spec.bind_get fun seen start => ?_
  have same : ∀ call, call = seen → Books category others call := fun _ eq => eq ▸ books seen start
  refine Raise.Spec.ite (fun _ => failWith_exhausted rfl same) fun _ => ?_
  refine Raise.Spec.ite (fun _ => failWith_exhausted rfl same) fun _ => ?_
  exact Raise.Spec.pure fun call eq => eq ▸ start

theorem validateCompleteEvent_spec (books : ∀ call, pre call → Books category others call) :
    Raise.Spec pre SseCall.validateCompleteEvent (fun _ => pre) (Exhausted category others) := by
  refine Raise.Spec.bind_get fun seen start => ?_
  have same : ∀ call, call = seen → Books category others call := fun _ eq => eq ▸ books seen start
  refine Raise.Spec.ite (fun _ => failWith_exhausted rfl same) fun _ => ?_
  exact Raise.Spec.pure fun call eq => eq ▸ start

/-- **Releasing** takes the size from the others. -/
theorem release_others (remain : 0 ≤ others) {size : Int} (nonneg : 0 ≤ size) :
    Raise.Spec (fun call => call.parser = parser ∧ Charged category (others + size) call)
      (ParserCall.onBudget (release size))
      (fun _ call => call.parser = parser ∧ Charged category others call) (fun _ _ => False) := by
  refine Raise.Spec.zoom fun call ⟨same, charged⟩ => ?_
  have held := charges_nonneg charged.frames
  have pending := charged.pending
  refine ((release_spec category _ size (by omega)).at charged.counts).returning ?_
  intro _ budget counts
  refine ⟨same, charged.pending, charged.frames, ?_⟩
  rwa [show call.parser.pendingBudgetBytes + charges call.frames + (others + size) - max size 0 =
    call.parser.pendingBudgetBytes + charges call.frames + others by omega] at counts

/-- **Reserving** adds the size to the others, or is refused. -/
theorem reserve_others (remain : 0 ≤ others) {size : Int} (nonneg : 0 ≤ size) :
    Raise.Spec (fun call => call.parser = parser ∧ Charged category others call)
      (ParserCall.onBudget (reserve size))
      (fun _ call => call.parser = parser ∧ Charged category (others + size) call)
      (fun error call => error = .bufferBudgetExhausted ∧ call.parser = parser ∧
        Charged category others call) := by
  refine Raise.Spec.zoom fun call ⟨same, charged⟩ => ?_
  have held := charges_nonneg charged.frames
  have pending := charged.pending
  refine (((reserve_spec category _ size (by omega)).at charged.counts).returning ?_).raising ?_
  · intro _ budget counts
    refine ⟨same, charged.pending, charged.frames, ?_⟩
    rwa [show call.parser.pendingBudgetBytes + charges call.frames + others + max size 0 =
      call.parser.pendingBudgetBytes + charges call.frames + (others + size) by omega] at counts
  · rintro error budget ⟨rfl, counts⟩
    exact ⟨rfl, same, charged.pending, charged.frames, counts⟩

/-- **Releasing all that is charged.** -/
theorem releasePendingBudget_spec (remain : 0 ≤ others) :
    Raise.Spec (fun call => call.parser = parser ∧ Charged category others call)
      SseCall.releasePendingBudget
      (fun _ call => call.parser = { parser with pendingBudgetBytes := 0 } ∧
        Charged category others call)
      (fun _ _ => False) := by
  refine Raise.Spec.bind_get fun seen ⟨same, charged⟩ => ?_
  have nonneg := charged.pending
  refine Raise.Spec.bind
    (fun _ call => call.parser = { parser with pendingBudgetBytes := 0 } ∧
      Charged category (others + seen.parser.pendingBudgetBytes) call)
    (Raise.Spec.modify ?_) fun _ => ?_
  · rintro call rfl
    exact ⟨by rw [same], charged.moved (Int.le_refl 0) (by simp only; omega)⟩
  refine Raise.Spec.ite (fun _ => release_others remain nonneg) fun nothing => ?_
  rw [not_not] at nothing
  rw [nothing, Int.add_zero]
  exact Raise.Spec.pure fun _ done => done

/-- **Dropping the partial event** gives its bytes back. -/
theorem clearPendingEvent_spec (remain : 0 ≤ others) :
    Raise.Spec (fun call => call.parser = parser ∧ Charged category others call)
      SseCall.clearPendingEvent
      (fun _ call => call.parser = parser.holding [] ∧ Books category others call)
      (fun _ _ => False) := by
  refine Raise.Spec.bind
    (fun _ call => call.parser = { parser with event := [] } ∧ Charged category others call)
    (Raise.Spec.modify ?_) fun _ => (releasePendingBudget_spec remain).returning ?_
  · rintro call ⟨rfl, charged⟩
    exact ⟨rfl, charged.of_sameParser rfl⟩
  · rintro _ call ⟨same, charged⟩
    exact ⟨same, charged, by rw [same]; rfl⟩

/-- **Giving back part of what is charged.** -/
theorem releasePendingBytes_spec (remain : 0 ≤ others) {size : Int} (nonneg : 0 ≤ size)
    (enough : size ≤ parser.pendingBudgetBytes) :
    Raise.Spec (fun call => call.parser = parser ∧ Charged category others call)
      (SseCall.releasePendingBytes size)
      (fun _ call =>
        call.parser = { parser with pendingBudgetBytes := parser.pendingBudgetBytes - size } ∧
          Charged category others call)
      (fun _ _ => False) := by
  refine Raise.Spec.bind_get fun seen ⟨same, charged⟩ => ?_
  rw [same]
  refine Raise.Spec.ite (fun exceeded => absurd enough (by omega)) fun _ => ?_
  refine Raise.Spec.bind _ (Raise.Spec.modify ?_) fun _ => release_others remain nonneg
  rintro call rfl
  refine ⟨by rw [same], charged.moved ?_ ?_⟩
  · simp only [same]
    omega
  · simp only
    omega

end Calls

/-! ### The extraction -/

/-- Inside `_extract_events`: the event and the frames collected so far, and a credit that covers
the bytes not yet read. -/
structure Collecting (category : String) (others : Int) (parser : SseParser) (event : Bytes)
    (texts : List PyStr) (unread : Nat) (state : Extracting) : Prop where
  parser : state.call.parser = parser.holding event
  events : state.events = texts
  credit : unread ≤ state.reservedCredit
  charged : Charged category (others + state.reservedCredit) state.call

/-- The extraction stopped on a limit; the credit left is still charged. -/
def Stopped (category : String) (others : Int) (error : StreamError) (state : Extracting) : Prop :=
  0 ≤ state.reservedCredit ∧ Exhausted category (others + state.reservedCredit) error state.call

section Extraction

variable {category : String} {others : Int} {parser : SseParser} {event segment : Bytes}
  {texts : List PyStr} {unread : Nat}

theorem Collecting.books {state : Extracting}
    (collecting : Collecting category others parser event texts unread state) :
    Books category (others + state.reservedCredit) state.call :=
  ⟨collecting.charged, by rw [collecting.parser]; rfl⟩

theorem Collecting.nonneg {state : Extracting}
    (collecting : Collecting category others parser event texts unread state) :
    0 ≤ state.reservedCredit :=
  le_trans (Int.natCast_nonneg _) collecting.credit

/-- A failing check inside the extraction. -/
theorem inCall_failWith {α : Type} {seen : Extracting}
    {post : α → Extracting → Prop} (resource : error.isResource = true)
    (collecting : Collecting category others parser event texts unread seen) :
    Raise.Spec (fun state => state = seen) (Extracting.inCall (SseCall.failWith error)) post
      (Stopped category others) := by
  refine Raise.Spec.zoom ?_
  rintro state rfl
  exact (failWith_exhausted resource fun _ same => same ▸ collecting.books).raising
    fun _ _ raised => ⟨collecting.nonneg, raised⟩

theorem takeCredit_collecting {state : Extracting}
    (collecting : Collecting category others parser event texts (segment.length + unread) state) :
    Collecting category others parser (event ++ segment) texts unread
      (Extracting.takeCredit segment state) := by
  obtain ⟨same, events, credit, charged⟩ := collecting
  have pending := charged.pending
  refine ⟨?_, events, ?_, ?_⟩
  · simp [Extracting.takeCredit, same, SseParser.holding]
  · simp only [Extracting.takeCredit]
    omega
  · refine charged.moved ?_ ?_ <;> simp only [Extracting.takeCredit] <;> omega

theorem appendSegment_spec (segment : Bytes) (unread : Nat) :
    Raise.Spec (Collecting category others parser event texts (segment.length + unread))
      (Extracting.appendSegment segment)
      (fun _ => Collecting category others parser (event ++ segment) texts unread)
      (Stopped category others) := by
  refine Raise.Spec.ite (fun empty => ?_) fun _ => ?_
  · refine Raise.Spec.pure fun state collecting => ?_
    simpa [empty] using collecting
  refine Raise.Spec.bind
    (fun _ => Collecting category others parser (event ++ segment) texts unread)
    (Raise.Spec.modify fun _ => takeCredit_collecting) fun _ => ?_
  refine Raise.Spec.bind_get fun seen collecting => ?_
  refine Raise.Spec.ite (fun _ => inCall_failWith rfl collecting) fun _ => ?_
  exact Raise.Spec.pure fun state same => same ▸ collecting

/-- **The second LF of a separator** turns the event into a frame. -/
theorem closeEvent_spec (remain : 0 ≤ others) (valid : Utf8.Valid event) :
    Raise.Spec
      (Collecting category others parser (event ++ [lfByte]) texts unread) Extracting.closeEvent
      (fun _ state => ∃ text, Utf8.decodeAll event = some text ∧
        Collecting category others parser [] (texts ++ [text]) unread state)
      (Stopped category others) := by
  obtain ⟨letters, encoded⟩ := valid
  have decoded : Utf8.decodeAll event = some (letters.map Char.toNat) := by
    rw [encoded, Utf8.decodeAll_encode]
  -- the newline leaves the event, but is still charged
  refine Raise.Spec.bind (fun _ state =>
    state.call.parser = { parser.holding (event ++ [lfByte]) with event := event } ∧
      state.events = texts ∧ unread ≤ state.reservedCredit ∧
      Charged category (others + state.reservedCredit) state.call)
    (Raise.Spec.zoom fun state collecting => Raise.Spec.modify ?_) fun _ => ?_
  · rintro _ rfl
    refine ⟨?_, collecting.events, collecting.credit, collecting.charged.of_sameParser rfl⟩
    rw [collecting.parser]
    simp [SseParser.holding]
  -- and is given back
  refine Raise.Spec.bind (fun _ => Collecting category others parser event texts unread)
    (Raise.Spec.zoom ?_) fun _ => ?_
  · rintro state ⟨same, events, credit, charged⟩
    have enough : (1 : Int) ≤
        { parser.holding (event ++ [lfByte]) with event := event }.pendingBudgetBytes := by simp
    refine (((releasePendingBytes_spec (by omega) (by decide) enough).at
      ⟨same, charged⟩).returning ?_).raising fun _ _ impossible => impossible.elim
    rintro _ call ⟨sameCall, charged⟩
    refine ⟨?_, events, credit, charged⟩
    simp [sameCall, SseParser.holding]
  refine Raise.Spec.bind (fun _ => Collecting category others parser event texts unread)
    (Raise.Spec.zoom fun state collecting => ?_) fun _ => ?_
  · refine ((validateCompleteEvent_spec fun _ same => same ▸ collecting.books).returning ?_).raising
      fun _ _ raised => ⟨collecting.nonneg, raised⟩
    rintro _ call rfl
    exact collecting
  refine Raise.Spec.bind_get fun seen collecting => ?_
  refine Raise.Spec.ite (fun _ => inCall_failWith rfl collecting) fun _ => ?_
  have sameEvent : seen.call.parser.event = event := by rw [collecting.parser]; rfl
  rw [sameEvent, decoded]
  refine Raise.Spec.modify ?_
  rintro state rfl
  obtain ⟨same, events, credit, charged⟩ := collecting
  refine ⟨_, rfl, ?_, ?_, credit, Int.le_refl 0, ?_, ?_⟩
  · simp [Extracting.emitFrame, same, SseParser.holding]
  · simp [Extracting.emitFrame, events]
  · intro frame member
    rcases List.mem_append.mp member with before | new
    · exact charged.frames frame before
    · rw [List.mem_singleton.mp new]
      exact charged.pending
  · have counts := charged.counts
    simp only [Extracting.emitFrame, charges_new, zero_add]
    exact counts

/-- **A newline** is a step of the machine that cuts at blank lines. -/
theorem onNewline_spec (remain : 0 ≤ others)
    (valid : ∀ cut ∈ ((blankLines lfByte).step event lfByte).1, Utf8.Valid cut) :
    Raise.Spec (Collecting category others parser event texts (unread + 1)) Extracting.onNewline
      (fun _ state => ∃ later,
        ((blankLines lfByte).step event lfByte).1.map Utf8.decodeAll = later.map some ∧
          Collecting category others parser ((blankLines lfByte).step event lfByte).2
            (texts ++ later) unread state)
      (Stopped category others) := by
  refine Raise.Spec.bind_get fun seen collecting => ?_
  have sameEvent : seen.call.parser.event = event := by rw [collecting.parser]; rfl
  rw [sameEvent]
  refine Raise.Spec.ite (fun last => ?_) fun notLast => ?_
  · obtain ⟨before, rfl⟩ := List.getLast?_eq_some_iff.mp last
    rw [blankLines_step_cut] at valid ⊢
    have fewer : Collecting category others parser (before ++ [lfByte]) texts unread seen :=
      { collecting with credit := by have := collecting.credit; push_cast at this; omega }
    refine ((closeEvent_spec remain (valid before List.mem_cons_self)).at fewer).returning ?_
    rintro _ state ⟨text, decoded, closed⟩
    exact ⟨[text], by simp [decoded], closed⟩
  · rw [blankLines_step_keep fun cut => notLast cut.2]
    refine Raise.Spec.modify ?_
    rintro state rfl
    refine ⟨[], rfl, ?_⟩
    rw [List.append_nil]
    exact takeCredit_collecting (by rwa [Nat.add_comm] at collecting)

/-- **The loop runs the machine that cuts at blank lines.** -/
theorem loop_spec (remain : 0 ≤ others) (bytes : Bytes) (plain : lfByte ∉ segment)
    (valid : ∀ cut ∈ ((blankLines lfByte).run event (segment ++ bytes)).1, Utf8.Valid cut) :
    Raise.Spec
      (Collecting category others parser event texts (segment.length + bytes.length))
      (Extracting.loop segment bytes)
      (fun _ state => ∃ later,
        ((blankLines lfByte).run event (segment ++ bytes)).1.map Utf8.decodeAll = later.map some ∧
          Collecting category others parser
            ((blankLines lfByte).run event (segment ++ bytes)).2 (texts ++ later) 0 state)
      (Stopped category others) := by
  induction bytes generalizing segment event texts with
  | nil =>
    rw [List.append_nil, blankLines_run_plain _ _ plain]
    refine (appendSegment_spec segment 0).returning ?_
    intro _ state collecting
    exact ⟨[], rfl, by rwa [List.append_nil]⟩
  | cons byte rest ih =>
    by_cases isLf : byte = lfByte
    · subst isLf
      have run : (blankLines lfByte).run event (segment ++ lfByte :: rest) =
          (((blankLines lfByte).step (event ++ segment) lfByte).1 ++
              ((blankLines lfByte).run
                ((blankLines lfByte).step (event ++ segment) lfByte).2 rest).1,
            ((blankLines lfByte).run
              ((blankLines lfByte).step (event ++ segment) lfByte).2 rest).2) := by
        rw [Mealy.run_append, blankLines_run_plain _ _ plain, Mealy.run_cons]
        rfl
      rw [run] at valid ⊢
      rw [Extracting.loop, if_pos rfl]
      refine Raise.Spec.bind _ (appendSegment_spec segment (rest.length + 1)) fun _ => ?_
      refine Raise.Spec.bind _ (onNewline_spec remain fun cut member =>
        valid cut (List.mem_append_left _ member)) fun _ => ?_
      rintro state ⟨here, sameHere, collecting⟩
      have start : Collecting category others parser
          ((blankLines lfByte).step (event ++ segment) lfByte).2 (texts ++ here)
          (([] : Bytes).length + rest.length) state := by simpa using collecting
      refine ((ih List.not_mem_nil fun cut member =>
        valid cut (List.mem_append_right _ member)).at start).returning ?_ state rfl
      rintro _ after ⟨later, sameLater, collecting⟩
      refine ⟨here ++ later, ?_, ?_⟩
      · rw [List.nil_append] at sameLater
        rw [List.map_append, List.map_append, sameHere, sameLater]
      · simpa using collecting
    · have plain' : lfByte ∉ segment ++ [byte] := by
        simp [plain, Ne.symm isLf]
      rw [Extracting.loop, if_neg isLf]
      have shifted : segment ++ byte :: rest = segment ++ [byte] ++ rest := by simp
      have length : segment.length + (byte :: rest).length = (segment ++ [byte]).length + rest.length := by
        simp only [List.length_append, List.length_cons, List.length_nil]
        omega
      rw [shifted] at valid ⊢
      rw [length]
      exact ih plain' valid

end Extraction

/-! ### The calls -/

/-- `SSEProtocolError` for a lone surrogate. -/
def invalidScalar : StreamError := .protocol "SSE text contains an invalid Unicode scalar"

/-- `SSEProtocolError` for a byte that is no UTF-8. -/
def invalidUtf8 : StreamError := .protocol "SSE stream contains invalid UTF-8"

/-- `SSEProtocolError` for bytes that stop inside a character. -/
def incompleteUtf8 : StreamError :=
  .protocol "SSE stream ended with an incomplete UTF-8 sequence"

/-- Text, rather than bytes. -/
def Chunk.isText : Chunk → Bool
  | .text _ => true
  | .bytes _ => false

/-- The text of a chunk and the bytes held after it, from the bytes held before it. -/
def Chunk.decoded (undecoded : Bytes) : Chunk → Option (PyStr × Bytes)
  | .text content => if undecoded = [] then some (content, []) else none
  | .bytes content => Utf8.decode undecoded content

/-- The text of consecutive chunks. -/
def decodeFrom (undecoded : Bytes) : List Chunk → Option (PyStr × Bytes)
  | [] => some ([], undecoded)
  | chunk :: rest => do
    let (text, undecoded) ← chunk.decoded undecoded
    let (later, undecoded) ← decodeFrom undecoded rest
    return (text ++ later, undecoded)

/-- What `_decode_chunk` raises. -/
def refusal (isText : Bool) : StreamError :=
  if isText then .protocol "cannot feed text while a UTF-8 byte sequence is incomplete"
  else invalidUtf8

/-- Why a call over some pieces raises: a limit or a refused reservation, pieces that do not decode,
or a text that does not encode. -/
def Refuses (undecoded : Bytes) (isText : Bool) (pieces : List Chunk) (error : StreamError) : Prop :=
  error.isResource = true ∨ (decodeFrom undecoded pieces = none ∧ error = refusal isText) ∨
    (isText = true ∧ error = invalidScalar)

section Feeding

variable {category : String} {others : Int} {parser : SseParser}

/-- **`_extract_events` over bytes** cuts them at blank lines. -/
theorem extractBytes_spec (remain : 0 ≤ others) (event text : List Char)
    (holds : parser.event = Utf8.encode event) :
    Raise.Spec
      (fun call => call.parser = parser ∧ parser.pendingBudgetBytes = parser.event.length ∧
        Charged category (others + (Utf8.encode text).length) call)
      (SseCall.extractBytes (Utf8.encode text))
      (fun events call => ∃ rest : List Char,
        (blankLines lfPoint).run (event.map Char.toNat) (text.map Char.toNat) =
            (events, rest.map Char.toNat) ∧
          call.parser = parser.holding (Utf8.encode rest) ∧ Books category others call)
      (Exhausted category others) := by
  rintro call ⟨same, balanced, charged⟩
  obtain ⟨cuts, rest, cutBytes, cutPoints⟩ := blankLines_utf8 event text
  have valid : ∀ cut ∈ ((blankLines lfByte).run (Utf8.encode event)
      ([] ++ Utf8.encode text)).1, Utf8.Valid cut := by
    rw [List.nil_append, cutBytes]
    intro cut member
    obtain ⟨letters, -, rfl⟩ := List.mem_map.mp member
    exact ⟨letters, rfl⟩
  have start : Collecting category others parser (Utf8.encode event) []
      (([] : Bytes).length + (Utf8.encode text).length)
      { call, reservedCredit := (Utf8.encode text).length, events := [] } := by
    refine ⟨?_, rfl, by simp, charged⟩
    rw [same, ← holds, SseParser.holding_self balanced]
  have looped := loop_spec remain (Utf8.encode text) List.not_mem_nil valid _ start
  rw [List.nil_append, cutBytes] at looped
  unfold SseCall.extractBytes
  cases outcome : Extracting.loop [] (Utf8.encode text)
      { call, reservedCredit := (Utf8.encode text).length, events := [] } with
  | mk result after =>
    rw [outcome] at looped
    cases result with
    | ok _ =>
      obtain ⟨later, sameTexts, collecting⟩ := looped
      have released := release_others remain collecting.nonneg after.call
        ⟨collecting.parser, collecting.charged⟩
      cases given : ParserCall.onBudget (release after.reservedCredit) after.call with
      | mk outcome' final =>
        rw [given] at released
        cases outcome' with
        | error _ => exact released.elim
        | ok _ =>
          simp only [given]
          have texts : later = cuts.map (List.map Char.toNat) := by
            have decoded : Utf8.decodeAll ∘ Utf8.encode = some ∘ List.map Char.toNat :=
              funext Utf8.decodeAll_encode
            rw [List.map_map, decoded, ← List.map_map] at sameTexts
            exact (List.map_injective_iff.mpr (Option.some_injective _) sameTexts).symm
          refine ⟨rest, ?_, released.1, released.2, by rw [released.1]; rfl⟩
          rw [cutPoints, collecting.events, texts, List.nil_append]
    | error error =>
      obtain ⟨nonneg, resource, books⟩ := looped
      have released := release_others remain nonneg after.call
        (And.intro (Eq.refl after.call.parser) books.toCharged)
      cases given : ParserCall.onBudget (release after.reservedCredit) after.call with
      | mk outcome' final =>
        rw [given] at released
        cases outcome' with
        | error _ => exact released.elim
        | ok _ =>
          simp only [given]
          refine ⟨resource, released.2, ?_⟩
          rw [released.1]
          exact books.balanced

/-- **`_extract_events`** cuts a chunk at blank lines, if the chunk encodes. -/
theorem extractEvents_spec (remain : 0 ≤ others) (valid : Utf8.Valid parser.event)
    (chunk : PyStr) :
    Raise.Spec (fun call => call.parser = parser ∧ Books category others call)
      (SseCall.extractEvents chunk)
      (fun events call => ∃ event, Utf8.Valid event ∧ call.parser = parser.holding event ∧
        (blankLines lfPoint).run parser.pendingText chunk =
          (events, (parser.holding event).pendingText) ∧ Books category others call)
      (fun error call => (error.isResource = true ∨
          (Utf8.encodePoints chunk = none ∧ error = invalidScalar)) ∧
        Books category others call) := by
  refine Raise.Spec.ite (fun empty => ?_) fun _ => ?_
  · refine Raise.Spec.pure ?_
    rintro call ⟨rfl, books⟩
    have self := SseParser.holding_self books.balanced
    exact ⟨call.parser.event, valid, self.symm, by rw [empty, self]; rfl, books⟩
  obtain ⟨letters, encoded⟩ := valid
  cases outcome : Utf8.encodePoints chunk with
  | none =>
    exact (failWith_spec fun _ start => start.2).raising
      fun _ _ raised => ⟨Or.inr ⟨rfl, raised.1⟩, raised.2⟩
  | some bytes =>
    obtain ⟨text, rfl, rfl⟩ := Utf8.encodePoints_eq_some_iff.mp outcome
    intro call ⟨same, books⟩
    have balanced : parser.pendingBudgetBytes = parser.event.length := same ▸ books.balanced
    have reserved := (reserve_others remain (Int.natCast_nonneg (Utf8.encode text).length)).at
      ⟨same, books.toCharged⟩
    refine Raise.Spec.bind
      (fun _ call => call.parser = parser ∧ parser.pendingBudgetBytes = parser.event.length ∧
        Charged category (others + (Utf8.encode text).length) call)
      ((reserved.returning fun _ _ done => ⟨done.1, balanced, done.2⟩).raising ?_)
      (fun _ => ((extractBytes_spec remain letters text encoded).returning ?_).raising ?_) call rfl
    · rintro _ after ⟨rfl, sameAfter, charged⟩
      exact ⟨Or.inl rfl, charged, by rw [sameAfter]; exact balanced⟩
    · rintro events after ⟨rest, run, sameAfter, books⟩
      refine ⟨Utf8.encode rest, ⟨rest, rfl⟩, sameAfter, ?_, books⟩
      rw [SseParser.pendingText_encode encoded, run,
        SseParser.pendingText_encode (SseParser.holding_event parser _)]
    · exact fun _ _ raised => ⟨Or.inl raised.1, raised.2⟩

/-- **`_decode_chunk`.** -/
theorem decodeChunk_spec (piece : Chunk) :
    Raise.Spec (fun call => call.parser = parser ∧ Books category others call)
      (SseCall.decodeChunk piece)
      (fun text call => ∃ undecoded, piece.decoded parser.undecoded = some (text, undecoded) ∧
        call.parser = { parser with undecoded } ∧ Books category others call)
      (fun error call => (piece.decoded parser.undecoded = none ∧ error = refusal piece.isText) ∧
        Books category others call) := by
  refine Raise.Spec.bind_get fun seen ⟨same, books⟩ => ?_
  have start : ∀ call, call = seen → Books category others call := fun _ eq => eq ▸ books
  cases piece with
  | text text =>
    refine Raise.Spec.ite (fun pending => ?_) fun nothing => ?_
    · rw [same] at pending
      exact (failWith_spec start).raising
        fun _ _ raised => ⟨⟨if_neg pending, raised.1⟩, raised.2⟩
    · rw [same, not_not] at nothing
      refine Raise.Spec.pure ?_
      rintro call rfl
      refine ⟨[], if_pos nothing, ?_, books⟩
      rw [same, ← nothing]
  | bytes bytes =>
    simp only [same]
    cases decoded : Utf8.decode parser.undecoded bytes with
    | none =>
      exact (failWith_spec start).raising fun _ _ raised => ⟨⟨decoded, raised.1⟩, raised.2⟩
    | some found =>
      obtain ⟨text, undecoded⟩ := found
      refine Raise.Spec.bind _ (Raise.Spec.modify ?_) fun _ => Raise.Spec.pure fun _ done => done
      rintro call rfl
      exact ⟨undecoded, decoded, by rw [same], books.of_sameParser rfl rfl⟩

/-- The stages between the decoder and the extraction turn text into text. -/
theorem stages_text (atStart afterCr : Bool) (letters : List Char) :
    ∃ text : List Char, ((newlines crPoint lfPoint).run afterCr
      ((leadingMark bomPoint).run atStart (letters.map Char.toNat)).1).1 = text.map Char.toNat := by
  have start : ∀ point ∈ letters.map Char.toNat, point.isValidChar := by
    intro point member
    obtain ⟨letter, -, rfl⟩ := List.mem_map.mp member
    exact letter.valid
  refine Utf8.exists_text (Mealy.run_emits _ _ Nat.isValidChar ?_ _ _
    (Mealy.run_emits _ _ Nat.isValidChar ?_ _ _ start))
  · intro afterCr point valid out member
    simp only [newlines] at member
    split at member
    · rw [List.mem_singleton.mp member]
      decide
    split at member
    · cases member
    · rwa [List.mem_singleton.mp member]
  · intro atStart point valid out member
    simp only [leadingMark] at member
    split at member
    · cases member
    · rwa [List.mem_singleton.mp member]

theorem decoded_text {undecoded : Bytes} (held : Utf8.Held undecoded) {piece : Chunk} {text : PyStr}
    {rest : Bytes} (decoded : piece.decoded undecoded = some (text, rest)) :
    Utf8.Held rest ∧ (piece.isText = false → ∃ letters : List Char, text = letters.map Char.toNat) := by
  cases piece with
  | text content =>
    simp only [Chunk.decoded] at decoded
    split at decoded
    · cases decoded
      exact ⟨Utf8.held_nil, fun isBytes => nomatch isBytes⟩
    · cases decoded
  | bytes content =>
    obtain ⟨heldRest, letters, same, -⟩ := Utf8.decode_sound held decoded
    exact ⟨heldRest, fun _ => ⟨letters, same⟩⟩

/-- What a call that returns has done, over some pieces: the machine ran over their text. -/
structure Fed (category : String) (others : Int) (parser : SseParser) (pieces : List Chunk)
    (frames : List PyStr) (call : SseCall) : Prop where
  fed : ∃ text, decodeFrom parser.undecoded pieces = some (text, call.parser.undecoded) ∧
    textMachine.run parser.stage text = (frames, call.parser.stage)
  limits : call.parser.limits = parser.limits
  sound : call.parser.Sound
  running : call.parser.Running
  books : Books category others call

theorem Fed.nil (sound : call.parser.Sound) (running : call.parser.Running)
    (books : Books category others call) : Fed category others call.parser [] [] call :=
  ⟨⟨[], rfl, rfl⟩, rfl, sound, running, books⟩

theorem Fed.cons {piece : Chunk} {pieces : List Chunk} {frames later : List PyStr}
    {middle call : SseCall} (first : Fed category others parser [piece] frames middle)
    (second : Fed category others middle.parser pieces later call) :
    Fed category others parser (piece :: pieces) (frames ++ later) call := by
  obtain ⟨text, decoded, run⟩ := first.fed
  obtain ⟨text', decoded', run'⟩ := second.fed
  refine ⟨⟨text ++ text', ?_, ?_⟩, second.limits.trans first.limits, second.sound, second.running,
    second.books⟩
  · simp only [decodeFrom, Option.bind_eq_bind] at decoded ⊢
    cases here : piece.decoded parser.undecoded with
    | none => simp [here] at decoded
    | some found =>
      simp only [here, Option.bind_some, List.append_nil, Option.pure_def, Option.some.injEq,
        Prod.mk.injEq] at decoded
      simp [decoded.1, decoded.2, decoded']
  · rw [Mealy.run_append, run, run']

theorem Refuses.cons {undecoded : Bytes} {isText : Bool} {piece : Chunk} {pieces : List Chunk}
    {text : PyStr} {rest : Bytes}
    (decoded : decodeFrom undecoded [piece] = some (text, rest))
    (refuses : Refuses rest isText pieces error) : Refuses undecoded isText (piece :: pieces) error := by
  refine refuses.imp_right (Or.imp_left fun ⟨refused, same⟩ => ⟨?_, same⟩)
  simp only [decodeFrom, Option.bind_eq_bind] at decoded ⊢
  cases here : piece.decoded undecoded with
  | none => rfl
  | some found =>
    simp only [here, Option.bind_some, List.append_nil, Option.pure_def, Option.some.injEq,
      Prod.mk.injEq] at decoded
    simp [decoded.2, refused]

/-- **One piece.** -/
theorem feedPiece_spec (remain : 0 ≤ others) (piece : Chunk) (events : List PyStr)
    (sound : parser.Sound) (running : parser.Running) :
    Raise.Spec (fun call => call.parser = parser ∧ Books category others call)
      (SseCall.feedPiece piece events)
      (fun total call => ∃ frames, total = events ++ frames ∧
        Fed category others parser [piece] frames call)
      (fun error call => Refuses parser.undecoded piece.isText [piece] error ∧
        Books category others call) := by
  have refused : ∀ error, piece.decoded parser.undecoded = none ∧ error = refusal piece.isText →
      Refuses parser.undecoded piece.isText [piece] error := by
    rintro error ⟨none, same⟩
    exact Or.inr (Or.inl ⟨by simp [decodeFrom, none], same⟩)
  refine Raise.Spec.bind _ ((decodeChunk_spec piece).raising
    fun error _ raised => ⟨refused error raised.1, raised.2⟩) fun decoded => ?_
  refine Raise.Spec.exists fun undecoded => Raise.Spec.given fun decodes => ?_
  have ⟨held, letters⟩ := decoded_text sound.held decodes
  -- the two stages on text change two flags of the parser
  generalize stripped : (leadingMark bomPoint).run parser.atStreamStart decoded = first
  refine Raise.Spec.bind (fun text call => text = first.1 ∧
      call.parser = { parser with undecoded, atStreamStart := first.2 } ∧
        Books category others call) (Raise.Spec.update ?_) fun _ => Raise.Spec.given ?_
  · rintro call ⟨same, books⟩
    have stage := SseParser.stripInitialBom_eq decoded call.parser
    rw [same] at stage
    simp only [stripped] at stage
    simp only [same, stage]
    exact ⟨trivial, trivial, books.of_sameParser (by rw [same]) (by rw [same])⟩
  rintro rfl
  generalize normalized : (newlines crPoint lfPoint).run parser.trailingCr first.1 = second
  refine Raise.Spec.bind (fun text call => text = second.1 ∧
      call.parser = { parser with
        undecoded, atStreamStart := first.2, trailingCr := second.2 } ∧
        Books category others call) (Raise.Spec.update ?_) fun _ => Raise.Spec.given ?_
  · rintro call ⟨same, books⟩
    have stage := SseParser.normalizeNewlines_eq first.1 call.parser
    rw [same] at stage
    simp only [normalized] at stage
    simp only [same, stage]
    exact ⟨trivial, trivial, books.of_sameParser (by rw [same]) (by rw [same])⟩
  rintro rfl
  have encodes : piece.isText = false → Utf8.encodePoints second.1 ≠ none := by
    intro isBytes
    obtain ⟨text, rfl⟩ := letters isBytes
    obtain ⟨text', same⟩ := stages_text parser.atStreamStart parser.trailingCr text
    rw [stripped, normalized] at same
    rw [same, Utf8.encodePoints_toNat]
    exact Option.some_ne_none _
  obtain ⟨ready, isReady⟩ : ∃ ready : SseParser, ready = { parser with
      undecoded, atStreamStart := first.2, trailingCr := second.2 } := ⟨_, rfl⟩
  have validEvent : Utf8.Valid ready.event := isReady ▸ sound.valid
  rw [← isReady]
  refine Raise.Spec.bind _ ((extractEvents_spec remain validEvent second.1).raising ?_)
    fun extracted => ?_
  · rintro error call ⟨resource | ⟨unencodable, same⟩, books⟩
    · exact ⟨Or.inl resource, books⟩
    · refine ⟨Or.inr (Or.inr ⟨?_, same⟩), books⟩
      exact Bool.of_not_eq_false fun isBytes => encodes isBytes unencodable
  refine Raise.Spec.bind_get fun seen ⟨event, valid, same, cut, books⟩ => ?_
  have exhausted : ∀ error call, Exhausted category others error call →
      Refuses parser.undecoded piece.isText [piece] error ∧ Books category others call :=
    fun error call raised => ⟨Or.inl raised.1, raised.2⟩
  refine Raise.Spec.ite (fun _ => ?_) fun _ => ?_
  · exact (failWith_exhausted rfl fun _ start => start ▸ books).raising exhausted
  refine Raise.Spec.bind _ ((validatePendingSize_spec fun _ start => start ▸ books).raising
    exhausted) fun _ => Raise.Spec.pure ?_
  rintro call rfl
  refine ⟨extracted, rfl, ⟨decoded, ?_, ?_⟩, ?_, ⟨?_, ?_⟩, ⟨?_, ?_⟩, books⟩
  · simp [decodeFrom, decodes, same, isReady]
  · have run : textMachine.run parser.stage decoded = _ :=
      Mealy.cascade_run _ _ parser.stage decoded
    have pending : ready.pendingText = parser.pendingText := by rw [isReady]; rfl
    rw [pending] at cut
    rw [run, Mealy.cascade_run]
    simp only [SseParser.stage, stripped, normalized, cut]
    rw [same, isReady]
    rfl
  · rw [same, isReady]
    rfl
  · rw [same, isReady]
    exact held
  · rw [same]
    exact valid
  · rw [same, isReady]
    exact running.notFinished
  · rw [same, isReady]
    exact running.notFailed

/-- **The loop over the pieces.** -/
theorem feedLoop_spec (remain : 0 ≤ others) {isText : Bool} (pieces : List Chunk)
    (kind : ∀ piece ∈ pieces, piece.isText = isText) (events : List PyStr)
    (sound : parser.Sound) (running : parser.Running) :
    Raise.Spec (fun call => call.parser = parser ∧ Books category others call)
      (SseCall.feedLoop pieces events)
      (fun total call => ∃ frames, total = events ++ frames ∧
        Fed category others parser pieces frames call)
      (fun error call => Refuses parser.undecoded isText pieces error ∧
        Books category others call) := by
  induction pieces generalizing parser events with
  | nil =>
    refine Raise.Spec.pure ?_
    rintro call ⟨rfl, books⟩
    exact ⟨[], (List.append_nil _).symm, Fed.nil sound running books⟩
  | cons piece rest ih =>
    have isPiece := kind piece List.mem_cons_self
    have kindRest := fun other member => kind other (List.mem_cons_of_mem _ member)
    refine Raise.Spec.bind _ ((feedPiece_spec remain piece events sound running).raising ?_)
      fun total => ?_
    · rintro error call ⟨refuses, books⟩
      rw [isPiece] at refuses
      refine ⟨refuses.imp_right (Or.imp_left fun ⟨refused, same⟩ => ⟨?_, same⟩), books⟩
      simp only [decodeFrom] at refused ⊢
      cases here : piece.decoded parser.undecoded with
      | none => rfl
      | some found => simp [here] at refused
    · rintro middle ⟨frames, same, first⟩
      obtain ⟨text, decoded, -⟩ := first.fed
      refine (((ih kindRest total first.sound first.running).at ⟨rfl, first.books⟩).returning
        ?_).raising ?_ middle rfl
      · rintro all call ⟨later, sameLater, second⟩
        exact ⟨frames ++ later, by rw [sameLater, same, List.append_assoc], first.cons second⟩
      · exact fun error call raised => ⟨raised.1.cons decoded, raised.2⟩

/-- `_validate_feed_size` changes nothing, and refuses a limit or a text that does not encode. -/
theorem validateFeedSize_spec (chunk : Chunk) {pre : SseCall → Prop}
    (books : ∀ call, pre call → Books category others call) :
    Raise.Spec pre (SseCall.validateFeedSize chunk) (fun _ => pre)
      (fun error call => (error.isResource = true ∨
        (chunk.isText = true ∧ error = invalidScalar)) ∧ Books category others call) := by
  refine Raise.Spec.bind_get fun seen start => ?_
  have same : ∀ call, call = seen → Books category others call := fun _ eq => eq ▸ books seen start
  refine Raise.Spec.ite (fun _ => Raise.Spec.pure fun call eq => eq ▸ start) fun _ => ?_
  have measured : ∀ observed : Nat, Raise.Spec (fun call => call = seen)
      (if observed > seen.parser.limits.maxFeedBytes then
        SseCall.failWith
          (.bufferOverflow "input chunk" seen.parser.limits.maxFeedBytes observed)
        else Pure.pure () : SseCall.Run Unit)
      (fun _ => pre) (fun error call => (error.isResource = true ∨
        (chunk.isText = true ∧ error = invalidScalar)) ∧ Books category others call) := by
    intro observed
    refine Raise.Spec.ite (fun _ => ?_) fun _ => Raise.Spec.pure fun call eq => eq ▸ start
    exact (failWith_exhausted rfl same).raising fun _ _ raised => ⟨Or.inl raised.1, raised.2⟩
  cases chunk with
  | bytes content => exact measured content.length
  | text content =>
    simp only
    split
    · exact (failWith_spec same).raising
        fun _ _ raised => ⟨Or.inr ⟨rfl, raised.1⟩, raised.2⟩
    · exact measured _

/-- **The handler** of `feed` and `finish`: the parser has failed and holds no event. -/
theorem abandon_spec {α : Type} (remain : 0 ≤ others) (error : StreamError) {post : α → SseCall → Prop} :
    Raise.Spec (Books category others) (SseCall.abandon error) post
      (fun raised call => raised = error ∧ call.parser.failed = true ∧
        Books category others call) := by
  refine Raise.Spec.bind (fun _ call => call.parser.failed = true ∧ Charged category others call)
    (Raise.Spec.modify fun _ books => ⟨rfl, books.toCharged.of_sameParser rfl⟩) fun _ => ?_
  rintro call ⟨failed, charged⟩
  refine Raise.Spec.bind _ (((clearPendingEvent_spec remain).at ⟨rfl, charged⟩).raising
    fun _ _ impossible => impossible.elim) (fun _ => Raise.Spec.throw ?_) call rfl
  rintro after ⟨same, books⟩
  refine ⟨rfl, ?_, books⟩
  rw [same]
  exact failed

/-- **`feed`.** -/
theorem feed_spec (remain : 0 ≤ others) (chunk : Chunk) (sound : parser.Sound)
    (running : parser.Running) :
    Raise.Spec (fun call => call.parser = parser ∧ Books category others call)
      (SseCall.feed chunk) (Fed category others parser (feedPieces chunk))
      (fun error call => Refuses parser.undecoded chunk.isText (feedPieces chunk) error ∧
        call.parser.failed = true ∧ Books category others call) := by
  have kind : ∀ piece ∈ feedPieces chunk, piece.isText = chunk.isText := by
    cases chunk with
    | text content | bytes content =>
      intro piece member
      obtain ⟨block, -, rfl⟩ := List.mem_map.mp member
      rfl
  refine Raise.Spec.bind_get fun seen ⟨same, books⟩ => ?_
  rw [same, running.notFinished, running.notFailed]
  simp only [Bool.false_eq_true, if_false]
  refine Raise.Spec.tryExcept
    (fun error call => Refuses parser.undecoded chunk.isText (feedPieces chunk) error ∧
      Books category others call) ?_ ?_
  · refine Raise.Spec.bind _ ((validateFeedSize_spec chunk fun _ start => start ▸ books).raising ?_)
      fun _ => ?_
    · rintro error call ⟨resource | unencodable, books⟩
      · exact ⟨Or.inl resource, books⟩
      · exact ⟨Or.inr (Or.inr unencodable), books⟩
    · refine ((feedLoop_spec remain (feedPieces chunk) kind [] sound running).at
        ⟨same, books⟩).returning ?_
      rintro total call ⟨frames, rfl, fed⟩
      exact fed
  · intro error
    refine Raise.Spec.given fun refuses => ?_
    exact (abandon_spec remain error).raising fun _ _ raised => ⟨raised.1 ▸ refuses, raised.2⟩

/-- How a stream ends at a parser: inside a character, inside an event, or between events. -/
def SseParser.ending (parser : SseParser) : Except StreamError Unit :=
  if parser.undecoded ≠ [] then .error incompleteUtf8
  else if parser.event ≠ [] then .error (.incompleteEvent parser.event.length)
  else .ok ()

/-- At the end of the stream the two stages on text change two flags of the parser. -/
theorem SseParser.stripInitialBom_final (parser : SseParser) :
    (parser.stripInitialBom [] true).1 = [] ∧
      (parser.stripInitialBom [] true).2.event = parser.event ∧
      (parser.stripInitialBom [] true).2.undecoded = parser.undecoded ∧
      (parser.stripInitialBom [] true).2.pendingBudgetBytes = parser.pendingBudgetBytes := by
  unfold stripInitialBom
  cases parser.atStreamStart <;> exact ⟨rfl, rfl, rfl, rfl⟩

theorem SseParser.normalizeNewlines_final (parser : SseParser) :
    (parser.normalizeNewlines [] true).1 = [] := by
  cases swallow : parser.trailingCr <;> simp [normalizeNewlines, swallow, normalizeLines, replaceCrLf,
    replaceCr]

/-- **The body of `finish`.** -/
theorem finishBody_spec :
    Raise.Spec (fun call => call.parser = { parser with finished := true } ∧
        Books category others call) SseCall.finishBody
      (fun frames call => frames = [] ∧ parser.ending = .ok () ∧ call.parser.event = parser.event ∧
        call.parser.undecoded = parser.undecoded ∧ Books category others call)
      (fun error call => (error.isResource = true ∨
          (error = .unicodeDecode ∧ parser.ending = .error incompleteUtf8) ∨
          (error ≠ .unicodeDecode ∧ parser.ending = .error error)) ∧
        Books category others call) := by
  refine Raise.Spec.bind_get fun seen ⟨same, books⟩ => ?_
  have sameUndecoded : seen.parser.undecoded = parser.undecoded := by rw [same]
  rw [sameUndecoded]
  refine Raise.Spec.ite (fun inside => ?_) fun between => ?_
  · refine Raise.Spec.throw ?_
    rintro call rfl
    exact ⟨Or.inr (Or.inl ⟨rfl, if_pos inside⟩), books⟩
  -- the two stages on text have nothing left to give
  refine Raise.Spec.bind (fun text call => text = [] ∧ call.parser.event = parser.event ∧
    call.parser.undecoded = parser.undecoded ∧ Books category others call)
    (Raise.Spec.update ?_) fun _ => Raise.Spec.given ?_
  · rintro call rfl
    obtain ⟨empty, event, undecoded, pending⟩ := call.parser.stripInitialBom_final
    refine ⟨empty, ?_, ?_, books.of_sameParser event pending⟩
    · rw [event, same]
    · rw [undecoded, same]
  rintro rfl
  refine Raise.Spec.bind (fun text call => text = [] ∧ call.parser.event = parser.event ∧
    call.parser.undecoded = parser.undecoded ∧ Books category others call)
    (Raise.Spec.update ?_) fun _ => Raise.Spec.given ?_
  · rintro call ⟨event, undecoded, books⟩
    exact ⟨call.parser.normalizeNewlines_final, event, undecoded, books.of_sameParser rfl rfl⟩
  rintro rfl
  refine Raise.Spec.bind (fun frames call => frames = [] ∧ call.parser.event = parser.event ∧
    call.parser.undecoded = parser.undecoded ∧ Books category others call)
    (Raise.Spec.pure fun _ start => ⟨rfl, start⟩) fun _ => Raise.Spec.given ?_
  rintro rfl
  refine Raise.Spec.bind (fun _ call => call.parser.event = parser.event ∧
    call.parser.undecoded = parser.undecoded ∧ Books category others call)
    ((validatePendingSize_spec fun _ start => start.2.2).raising
      fun _ _ raised => ⟨Or.inl raised.1, raised.2⟩) fun _ => ?_
  refine Raise.Spec.bind_get fun final ⟨event, undecoded, books⟩ => ?_
  rw [event]
  refine Raise.Spec.ite (fun inside => ?_) fun nothing => ?_
  · have size : final.parser.pendingSizeBytes = parser.event.length := by
      rw [not_not] at between
      simp [SseParser.pendingSizeBytes, event, undecoded, between]
    refine (failWith_spec fun _ start => start ▸ books).raising ?_
    rintro _ call ⟨rfl, books⟩
    refine ⟨Or.inr (Or.inr ⟨by simp, ?_⟩), books⟩
    rw [SseParser.ending, if_neg between, if_pos inside, size]
  · refine Raise.Spec.pure ?_
    rintro call rfl
    refine ⟨rfl, ?_, event, undecoded, books⟩
    rw [SseParser.ending, if_neg between, if_neg nothing]

/-- **`finish`**, at a parser that takes input. -/
theorem finish_spec (remain : 0 ≤ others) (running : parser.Running) :
    Raise.Spec (fun call => call.parser = parser ∧ Books category others call) SseCall.finish
      (fun frames call => frames = [] ∧ parser.ending = .ok () ∧ call.parser.event = parser.event ∧
        call.parser.undecoded = parser.undecoded ∧ Books category others call)
      (fun error call => (error.isResource = true ∨ parser.ending = .error error) ∧
        call.parser.failed = true ∧ Books category others call) := by
  refine Raise.Spec.bind_get fun seen ⟨same, books⟩ => ?_
  rw [same, running.notFinished, running.notFailed]
  simp only [Bool.false_eq_true, if_false]
  refine Raise.Spec.bind (fun _ call => call.parser = { parser with finished := true } ∧
    Books category others call) (Raise.Spec.modify ?_) fun _ => ?_
  · rintro call rfl
    exact ⟨by rw [same], books.of_sameParser rfl rfl⟩
  refine Raise.Spec.tryExcept _ finishBody_spec fun error => Raise.Spec.given fun reason => ?_
  refine Raise.Spec.ite (fun isDecode => ?_) fun notDecode => ?_
  · refine (abandon_spec remain _).raising ?_
    rintro _ call ⟨rfl, failed, books⟩
    refine ⟨?_, failed, books⟩
    rcases reason with resource | ⟨-, incomplete⟩ | ⟨notDecode, -⟩
    · rw [isDecode] at resource
      exact absurd resource (by decide)
    · exact Or.inr incomplete
    · exact absurd isDecode notDecode
  · refine (abandon_spec remain _).raising ?_
    rintro _ call ⟨rfl, failed, books⟩
    refine ⟨?_, failed, books⟩
    rcases reason with resource | ⟨isDecode, -⟩ | ⟨-, incomplete⟩
    · exact Or.inl resource
    · exact absurd isDecode notDecode
    · exact Or.inr incomplete

/-! ### Any call, from any state of the parser -/

/-- What holds between any two calls: the books, and a parser that takes input is sound. -/
structure Kept (category : String) (others : Int) (call : SseCall) : Prop where
  books : Books category others call
  sound : call.parser.Running → call.parser.Sound

/-- A call that raises keeps what holds between calls, and is no underflow. -/
def KeptFailed (category : String) (others : Int) (error : StreamError) (call : SseCall) : Prop :=
  ¬ error.Underflow ∧ Kept category others call

theorem Kept.of_failed (books : Books category others call)
    (failed : call.parser.failed = true) : Kept category others call :=
  ⟨books, fun running => absurd (failed.symm.trans running.notFailed) Bool.true_eq_false_eq_False⟩

theorem not_underflow_of_resource (resource : error.isResource = true) :
    ¬ error.Underflow := by
  rintro (rfl | rfl | rfl) <;> cases resource

theorem Refuses.not_underflow {undecoded : Bytes} {isText : Bool} {pieces : List Chunk}
    (refuses : Refuses undecoded isText pieces error) : ¬ error.Underflow := by
  rcases refuses with resource | ⟨-, rfl⟩ | ⟨-, rfl⟩
  · exact not_underflow_of_resource resource
  · cases isText <;> decide
  · decide

theorem ending_not_underflow (ends : parser.ending = .error error) :
    ¬ error.Underflow := by
  unfold SseParser.ending at ends
  split at ends
  · cases ends
    decide
  split at ends
  · cases ends
    rintro (same | same | same) <;> cases same
  · cases ends

/-- **`feed`**, in any state. -/
theorem feed_kept (remain : 0 ≤ others) (chunk : Chunk) :
    Raise.Spec (Kept category others) (SseCall.feed chunk) (fun _ => Kept category others)
      (KeptFailed category others) := by
  intro call kept
  by_cases running : call.parser.Running
  · have spec := feed_spec remain chunk (kept.sound running) running call ⟨rfl, kept.books⟩
    cases outcome : SseCall.feed chunk call with
    | mk result after =>
      rw [outcome] at spec
      cases result with
      | ok frames => exact ⟨spec.books, fun _ => spec.sound⟩
      | error error => exact ⟨spec.1.not_underflow, .of_failed spec.2.2 spec.2.1⟩
  · -- the call raises before it does anything
    refine Raise.Spec.bind_get (fun seen same => ?_) call rfl
    refine Raise.Spec.ite (fun _ => ?_) fun notFinished => Raise.Spec.ite (fun _ => ?_) fun notFailed => ?_
    · exact Raise.Spec.throw fun _ eq => eq ▸ same ▸ ⟨by decide, kept⟩
    · exact Raise.Spec.throw fun _ eq => eq ▸ same ▸ ⟨by decide, kept⟩
    · rw [← same] at notFinished notFailed
      exact absurd ⟨by simpa using notFinished, by simpa using notFailed⟩ running

/-- **`finish`**, in any state. -/
theorem finish_kept (remain : 0 ≤ others) :
    Raise.Spec (Kept category others) SseCall.finish (fun _ => Kept category others)
      (KeptFailed category others) := by
  intro call kept
  by_cases running : call.parser.Running
  · have spec := finish_spec remain running call ⟨rfl, kept.books⟩
    cases outcome : SseCall.finish call with
    | mk result after =>
      rw [outcome] at spec
      cases result with
      | ok frames =>
        obtain ⟨-, -, event, undecoded, books⟩ := spec
        have sound := kept.sound running
        exact ⟨books, fun _ => ⟨undecoded ▸ sound.held, event ▸ sound.valid⟩⟩
      | error error =>
        refine ⟨?_, .of_failed spec.2.2 spec.2.1⟩
        exact spec.1.elim not_underflow_of_resource ending_not_underflow
  · refine Raise.Spec.bind_get (fun seen same => ?_) call rfl
    refine Raise.Spec.ite (fun _ => ?_) fun notFailed => Raise.Spec.ite (fun _ => ?_) fun notFinished => ?_
    · exact Raise.Spec.throw fun _ eq => eq ▸ same ▸ ⟨by decide, kept⟩
    · exact Raise.Spec.pure fun _ eq => eq ▸ same ▸ kept
    · rw [← same] at notFinished notFailed
      exact absurd ⟨by simpa using notFinished, by simpa using notFailed⟩ running

/-- **`discard`**, in any state. -/
theorem discard_kept (remain : 0 ≤ others) :
    Raise.Spec (Kept category others) SseCall.discard (fun _ => Kept category others)
      (fun _ _ => False) := by
  intro call kept
  refine Raise.Spec.bind (fun _ after => after.parser = { call.parser with
      failed := true, finished := true } ∧ Charged category others after)
    (Raise.Spec.modify ?_) (fun _ => ?_) call rfl
  · rintro _ rfl
    exact ⟨rfl, kept.books.toCharged.of_sameParser rfl⟩
  · refine (clearPendingEvent_spec remain).returning fun _ after done => ?_
    exact .of_failed done.2 (by rw [done.1]; rfl)

end Feeding

end UniApi.Streaming
