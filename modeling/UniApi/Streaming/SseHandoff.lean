/-
**Handing a stream over to a fresh parser.**

A proxy that stops parsing passes `pending_data` and then the rest of the stream to a fresh parser.
The fresh parser ends up in the state of the old one, except for two things that `pending_data`
does not carry:

* a CR has just completed a blank line: the LF that follows belongs to it, but the fresh parser
  takes it for a line of its own;
* the stream is past its start: a U+FEFF there is text, but the fresh parser drops it.

`CarriesText` excludes both. Where they are not excluded, the difference stays unseen only in a
stream that breaks off at a bad byte or inside a character before a frame shows it
(`StaysUnseen`). `handOver` says that these are exactly the streams that are handed over well.
-/

import UniApi.Streaming.SseSplit

namespace UniApi.Streaming

open UniApi.Lib RetainedBudget

/-! ### The states a stream reaches -/

/-- What holds of the state of the text stages at every point of a stream. -/
structure Reached (stage : Bool × Bool × PyStr) : Prop where
  start : stage.1 = true → stage.2.1 = false ∧ stage.2.2 = []
  noCr : crPoint ∉ stage.2.2
  uncut : (blankLines lfPoint).run [] stage.2.2 = ([], stage.2.2)
  afterCr : stage.2.1 = true → stage.2.2 = [] ∨ stage.2.2.getLast? = some lfPoint

theorem reached_start : Reached (true, false, []) :=
  ⟨fun _ => ⟨rfl, rfl⟩, List.not_mem_nil, rfl, fun afterCr => nomatch afterCr⟩

/-- A symbol behind the line endings keeps the event free of CR and of blank lines. -/
theorem blankLines_step_uncut {event : PyStr} {symbol : CodePoint} (notCr : symbol ≠ crPoint)
    (noCr : crPoint ∉ event) (uncut : (blankLines lfPoint).run [] event = ([], event)) :
    crPoint ∉ ((blankLines lfPoint).step event symbol).2 ∧
      (blankLines lfPoint).run [] ((blankLines lfPoint).step event symbol).2 =
        ([], ((blankLines lfPoint).step event symbol).2) ∧
      (symbol = lfPoint → ((blankLines lfPoint).step event symbol).2 = [] ∨
        ((blankLines lfPoint).step event symbol).2.getLast? = some lfPoint) := by
  by_cases cut : symbol = lfPoint ∧ event.getLast? = some lfPoint
  · have step : (blankLines lfPoint).step event symbol = ([event.dropLast], []) := by
      simp only [blankLines, if_pos cut]
    rw [step]
    exact ⟨List.not_mem_nil, rfl, fun _ => Or.inl rfl⟩
  · have step := blankLines_step_keep cut
    rw [step]
    refine ⟨?_, ?_, ?_⟩
    · simp [noCr, Ne.symm notCr]
    · simp only [Mealy.run_append, uncut, Mealy.run_cons, Mealy.run_nil, step]
      rfl
    · rintro rfl
      exact Or.inr (by simp)

theorem textMachine_step (atStart afterCr : Bool) (event : PyStr) (point : CodePoint) :
    textMachine.step (atStart, afterCr, event) point =
      if atStart ∧ point = bomPoint then ([], false, afterCr, event)
      else
        let line := (newlines crPoint lfPoint).step afterCr point
        (((blankLines lfPoint).run event line.1).1, false, line.2,
          ((blankLines lfPoint).run event line.1).2) := by
  unfold textMachine Mealy.cascade leadingMark
  by_cases mark : atStart = true ∧ point = bomPoint
  · simp [mark]
  · have notMark : (atStart && point == bomPoint) = false := by simpa using mark
    simp [notMark, if_neg mark]

theorem textMachine_keeps (stage : Bool × Bool × PyStr) (point : CodePoint) (reached : Reached stage) :
    Reached (textMachine.step stage point).2 := by
  obtain ⟨atStart, afterCr, event⟩ := stage
  obtain ⟨start, noCr, uncut, lastCr⟩ := reached
  simp only at start noCr uncut lastCr
  have behind : ∀ symbol, symbol ≠ crPoint → ∀ flag, (flag = true → symbol = lfPoint) →
      Reached (false, flag, ((blankLines lfPoint).step event symbol).2) := by
    intro symbol notCr flag isLf
    obtain ⟨noCr', uncut', last⟩ := blankLines_step_uncut notCr noCr uncut
    exact ⟨nofun, noCr', uncut', fun afterCr => last (isLf afterCr)⟩
  rw [textMachine_step]
  split
  · rename_i mark
    obtain ⟨rfl, rfl⟩ := start mark.1
    exact ⟨nofun, List.not_mem_nil, rfl, nofun⟩
  by_cases isCr : point = crPoint
  · rw [isCr, newlines_step_cr]
    exact behind lfPoint (by decide) true fun _ => rfl
  by_cases swallowed : point = lfPoint ∧ afterCr = true
  · obtain ⟨rfl, rfl⟩ := swallowed
    rw [newlines_step_swallow (by decide)]
    exact ⟨nofun, noCr, uncut, nofun⟩
  · rw [newlines_step_plain afterCr isCr swallowed]
    exact behind point isCr false nofun

variable {stage : Bool × Bool × PyStr} {text : PyStr}

theorem reached_run (reached : Reached stage) (text : PyStr) :
    Reached (textMachine.run stage text).2 :=
  Mealy.run_invariant _ Reached textMachine_keeps reached text

/-! ### What `pending_data` carries -/

/-- The text of `pending_data`. -/
def pendingPoints (stage : Bool × Bool × PyStr) : PyStr :=
  if stage.2.1 ∧ stage.2.2.getLast? = some lfPoint then stage.2.2.dropLast ++ [crPoint] else stage.2.2

/-- The state a fresh parser reaches from `pending_data`. -/
def handedOver (stage : Bool × Bool × PyStr) : Bool × Bool × PyStr :=
  if stage.2.2 = [] then (true, false, []) else (false, stage.2.1, removeMark bomPoint stage.2.2)

theorem removeMark_append_singleton {α : Type} [DecidableEq α] {mark symbol : α}
    (different : symbol ≠ mark) (text : List α) :
    removeMark mark (text ++ [symbol]) = removeMark mark text ++ [symbol] := by
  cases text with
  | nil => simp [removeMark, different]
  | cons head tail =>
    rw [List.cons_append, removeMark, removeMark]
    split <;> rfl

theorem not_mem_removeMark {α : Type} [DecidableEq α] {mark symbol : α} {text : List α}
    (absent : symbol ∉ text) : symbol ∉ removeMark mark text := by
  cases text with
  | nil => exact absent
  | cons head tail =>
    rw [removeMark]
    split
    · exact fun member => absent (List.mem_cons_of_mem _ member)
    · exact absent

/-- An event without its leading mark has no blank line either. -/
theorem removeMark_uncut {event : PyStr} (uncut : (blankLines lfPoint).run [] event = ([], event)) :
    (blankLines lfPoint).run [] (removeMark bomPoint event) = ([], removeMark bomPoint event) := by
  cases event with
  | nil => rfl
  | cons head tail =>
    rw [removeMark]
    split
    · rename_i mark
      have step : (blankLines lfPoint).step [] head = ([], [head]) := blankLines_step_keep (by simp)
      rw [Mealy.run_cons, step, List.nil_append] at uncut
      have different : head ≠ lfPoint := by rw [mark]; decide
      rcases blankLines_run_cons head [] tail (Or.inl different) with
        ⟨none, run⟩ | ⟨first, rest, some, run⟩
      · rw [run] at uncut
        simp only [Prod.mk.injEq, List.cons.injEq, true_and] at uncut
        exact Prod.ext none uncut
      · rw [run] at uncut
        cases uncut
    · exact uncut

/-- **A fresh parser reads `pending_data`** without completing a frame. -/
theorem run_pendingPoints (reached : Reached stage) :
    textMachine.run (true, false, []) (pendingPoints stage) = ([], handedOver stage) := by
  obtain ⟨atStart, afterCr, event⟩ := stage
  obtain ⟨start, noCr, uncut, lastCr⟩ := reached
  simp only at start noCr uncut lastCr
  by_cases empty : event = []
  · subst empty
    have pending : pendingPoints (atStart, afterCr, []) = [] := by simp [pendingPoints]
    rw [pending]
    rfl
  have runs : ∀ text flag, text ≠ [] → (newlines crPoint lfPoint).run false
      (removeMark bomPoint text) = (removeMark bomPoint event, flag) →
      textMachine.run (true, false, []) text = ([], false, flag, removeMark bomPoint event) := by
    intro text flag nonempty lines
    unfold textMachine
    rw [Mealy.cascade_run, Mealy.cascade_run, leadingMark_run _ _ nonempty]
    simp only [lines, removeMark_uncut uncut]
  have handed : handedOver (atStart, afterCr, event) =
      (false, afterCr, removeMark bomPoint event) := if_neg empty
  rw [handed]
  by_cases split : afterCr = true ∧ event.getLast? = some lfPoint
  · obtain ⟨before, rfl⟩ := List.getLast?_eq_some_iff.mp split.2
    have pending : pendingPoints (atStart, afterCr, before ++ [lfPoint]) = before ++ [crPoint] := by
      simp [pendingPoints, split.1]
    have plain : crPoint ∉ removeMark bomPoint before :=
      not_mem_removeMark fun member => noCr (List.mem_append_left _ member)
    rw [pending, split.1]
    refine runs _ true (by simp) ?_
    rw [removeMark_append_singleton (by decide), removeMark_append_singleton (by decide),
      Mealy.run_append, newlines_run_plain _ plain, Mealy.run_cons, newlines_step_cr]
    rfl
  · have pending : pendingPoints (atStart, afterCr, event) = event := if_neg split
    have noFlag : afterCr = false := by
      rw [← Bool.not_eq_true]
      exact fun isCr => split ⟨isCr, (lastCr isCr).resolve_left empty⟩
    rw [pending, noFlag]
    exact runs event false empty (newlines_run_plain _ (not_mem_removeMark noCr))

/-! ### The two parsers on the rest of the text -/

/-- `pending_data` carries the state over, as far as the rest of the text shows. -/
structure CarriesText (stage : Bool × Bool × PyStr) (text : PyStr) : Prop where
  /-- No LF follows the CR of a blank line. -/
  lineEnding : ¬ (stage.2.1 = true ∧ stage.2.2 = [] ∧ text.head? = some lfPoint)
  /-- No U+FEFF stands where the fresh parser starts. -/
  mark : ¬ (stage.1 = false ∧ (stage.2.2 ++ text).head? = some bomPoint)

theorem removeMark_of_head {α : Type} [DecidableEq α] {mark : α} {text : List α}
    (absent : text.head? ≠ some mark) : removeMark mark text = text := by
  cases text with
  | nil => rfl
  | cons head tail => exact if_neg fun isMark => absent (by rw [isMark]; rfl)

theorem newlines_run_true_of_head (absent : text.head? ≠ some lfPoint) :
    ((newlines crPoint lfPoint).run true text).1 = ((newlines crPoint lfPoint).run false text).1 := by
  rw [(newlines_run_true (by decide) text).1, if_neg absent]

/-- **What is carried over is read alike.** -/
theorem handedOver_same (reached : Reached stage) (carries : CarriesText stage text) :
    (textMachine.run (handedOver stage) text).1 = (textMachine.run stage text).1 ∧
      (textMachine.run (handedOver stage) text).2.2.2 = (textMachine.run stage text).2.2.2 := by
  obtain ⟨atStart, afterCr, event⟩ := stage
  obtain ⟨start, -, -, -⟩ := reached
  obtain ⟨lineEnding, mark⟩ := carries
  simp only at start lineEnding mark
  rw [textMachine_frames, textMachine_frames, textMachine_event, textMachine_event]
  by_cases empty : event = []
  · subst empty
    cases atStart with
    | true =>
      obtain ⟨rfl, -⟩ := start rfl
      exact ⟨rfl, rfl⟩
    | false =>
      have noMark : text.head? ≠ some bomPoint := fun isMark => mark ⟨rfl, isMark⟩
      have lines : linesOf (false, afterCr, []) text = linesOf (true, false, []) text := by
        simp only [linesOf, leadingMark_run_false, leadingMark_text, removeMark_of_head noMark]
        cases afterCr with
        | false => rfl
        | true => exact newlines_run_true_of_head fun isLf => lineEnding ⟨rfl, rfl, isLf⟩
      rw [lines]
      exact ⟨rfl, rfl⟩
  · have isPast : atStart = false := by
      rw [← Bool.not_eq_true]
      exact fun isStart => empty (start isStart).2
    have noMark : event.head? ≠ some bomPoint := by
      intro isMark
      cases event with
      | nil => exact empty rfl
      | cons head tail => exact mark ⟨isPast, isMark⟩
    have handed : handedOver (atStart, afterCr, event) = (false, afterCr, event) := by
      rw [handedOver, if_neg empty, removeMark_of_head noMark]
    rw [handed, isPast]
    exact ⟨rfl, rfl⟩

theorem linesOf_past (afterCr : Bool) (event text : PyStr) :
    linesOf (false, afterCr, event) text = ((newlines crPoint lfPoint).run afterCr text).1 := by
  rw [linesOf, leadingMark_run_false]

theorem linesOf_fresh (text : PyStr) :
    linesOf (true, false, []) text = ((newlines crPoint lfPoint).run false (removeMark bomPoint text)).1 := by
  rw [linesOf, leadingMark_text]

theorem newlines_run_mark (afterCr : Bool) (text : PyStr) :
    ((newlines crPoint lfPoint).run afterCr (bomPoint :: text)).1 =
      bomPoint :: ((newlines crPoint lfPoint).run false text).1 := by
  have step : (newlines crPoint lfPoint).step afterCr bomPoint = ([bomPoint], false) :=
    newlines_step_plain afterCr (by decide) fun isLf => absurd isLf.1 (by decide)
  rw [Mealy.run_cons, step]
  rfl

/-- The LF that belongs to the CR of a blank line is a line of its own for the fresh parser. -/
theorem lineEnding_lost (reached : Reached stage)
    (lost : stage.2.1 = true ∧ stage.2.2 = [] ∧ text.head? = some lfPoint) :
    ((textMachine.run stage text).1, (textMachine.run stage text).2.2.2) =
        (blankLines lfPoint).run [] (linesOf stage text) ∧
      ((textMachine.run (handedOver stage) text).1, (textMachine.run (handedOver stage) text).2.2.2) =
        (blankLines lfPoint).run [lfPoint] (linesOf stage text) := by
  obtain ⟨atStart, afterCr, event⟩ := stage
  obtain ⟨rfl, rfl, isLf⟩ : afterCr = true ∧ event = [] ∧ text.head? = some lfPoint := lost
  obtain rfl : atStart = false := by
    rw [← Bool.not_eq_true]
    exact fun isStart => nomatch (reached.start isStart).1
  obtain ⟨rest, rfl⟩ := List.head?_eq_some_iff.mp isLf
  have handed : handedOver (false, true, []) = (true, false, []) := rfl
  have old : linesOf (false, true, []) (lfPoint :: rest) =
      ((newlines crPoint lfPoint).run false rest).1 := by
    rw [linesOf_past, Mealy.run_cons, newlines_step_swallow (by decide)]
    rfl
  have fresh : linesOf (true, false, []) (lfPoint :: rest) =
      lfPoint :: ((newlines crPoint lfPoint).run false rest).1 := by
    have step : (newlines crPoint lfPoint).step false lfPoint = ([lfPoint], false) :=
      newlines_step_plain false (by decide) (by simp)
    rw [linesOf_fresh, removeMark_of_head (by simp), Mealy.run_cons, step]
    rfl
  have step : (blankLines lfPoint).step [] lfPoint = ([], [lfPoint]) := blankLines_step_keep (by simp)
  rw [handed, textMachine_frames, textMachine_event, textMachine_frames, textMachine_event, old, fresh,
    Mealy.run_cons, step]
  exact ⟨rfl, rfl⟩

/-- A U+FEFF past the start of the stream is dropped by the fresh parser. -/
theorem mark_lost (reached : Reached stage)
    (lost : stage.1 = false ∧ (stage.2.2 ++ text).head? = some bomPoint) :
    ∃ event lines, stage.2.2 ++ linesOf stage text = bomPoint :: event ++ lines ∧
      (blankLines lfPoint).run [] (bomPoint :: event) = ([], bomPoint :: event) ∧
      ((textMachine.run stage text).1, (textMachine.run stage text).2.2.2) =
        (blankLines lfPoint).run (bomPoint :: event) lines ∧
      ((textMachine.run (handedOver stage) text).1, (textMachine.run (handedOver stage) text).2.2.2) =
        (blankLines lfPoint).run event lines := by
  obtain ⟨atStart, afterCr, event⟩ := stage
  obtain ⟨rfl, isMark⟩ : atStart = false ∧ (event ++ text).head? = some bomPoint := lost
  rw [textMachine_frames, textMachine_event, textMachine_frames, textMachine_event]
  cases event with
  | nil =>
    obtain ⟨rest, rfl⟩ := List.head?_eq_some_iff.mp isMark
    have handed : handedOver (false, afterCr, []) = (true, false, []) := rfl
    have fresh : linesOf (true, false, []) (bomPoint :: rest) =
        ((newlines crPoint lfPoint).run false rest).1 := by
      rw [linesOf_fresh, removeMark, if_pos rfl]
    have step : (blankLines lfPoint).step [] bomPoint = ([], [bomPoint]) :=
      blankLines_step_keep fun cut => absurd cut.1 (by decide)
    rw [handed, fresh, linesOf_past, newlines_run_mark]
    refine ⟨[], _, rfl, ?_, ?_, rfl⟩
    · rw [Mealy.run_cons, step]
      rfl
    · simp only [Mealy.run_cons, step]
      rfl
  | cons head tail =>
    obtain rfl : head = bomPoint := Option.some_injective _ isMark
    have handed : handedOver (false, afterCr, bomPoint :: tail) = (false, afterCr, tail) := by
      rw [handedOver, if_neg (List.cons_ne_nil _ _), removeMark, if_pos rfl]
    rw [handed, linesOf_past, linesOf_past]
    exact ⟨tail, _, rfl, reached.uncut, rfl, rfl⟩

/-- What is not carried over stays unseen in the frames of a text: the line is one of a pair of
blank lines, or no frame is completed after the mark. -/
def StaysUnseen (stage : Bool × Bool × PyStr) (text : PyStr) : Prop :=
  ((stage.2.1 = true ∧ stage.2.2 = [] ∧ text.head? = some lfPoint) ∧
      PairedBlankLines lfPoint (linesOf stage text)) ∨
    ((stage.1 = false ∧ (stage.2.2 ++ text).head? = some bomPoint) ∧
      ¬ [lfPoint, lfPoint] <:+: stage.2.2 ++ linesOf stage text)

/-- A mark more at the front of an event shows in the first frame. -/
theorem blankLines_mark {event : PyStr}
    (uncut : (blankLines lfPoint).run [] (bomPoint :: event) = ([], bomPoint :: event))
    (lines : PyStr) :
    ((blankLines lfPoint).run event lines).1 = ((blankLines lfPoint).run (bomPoint :: event) lines).1 ↔
      ¬ [lfPoint, lfPoint] <:+: bomPoint :: event ++ lines := by
  have whole : (blankLines lfPoint).run [] (bomPoint :: event ++ lines) =
      (blankLines lfPoint).run (bomPoint :: event) lines := by
    rw [Mealy.run_append, uncut]
    rfl
  have different : bomPoint ≠ lfPoint := by decide
  rw [← blankLines_run_eq_nil, whole]
  rcases blankLines_run_cons bomPoint event lines (Or.inl different) with
    ⟨none, run⟩ | ⟨first, rest, some, run⟩
  · rw [run, none]
  · rw [run, some]
    refine ⟨fun same => ?_, fun none => nomatch none⟩
    exact absurd (congrArg List.length (List.cons.inj same).1) (by simp)

/-- **What is not carried over shows in the frames, unless it stays unseen.** -/
theorem handedOver_frames (reached : Reached stage) (lost : ¬ CarriesText stage text) :
    (textMachine.run (handedOver stage) text).1 = (textMachine.run stage text).1 ↔
      StaysUnseen stage text := by
  by_cases lineEnding : stage.2.1 = true ∧ stage.2.2 = [] ∧ text.head? = some lfPoint
  · obtain ⟨old, fresh⟩ := lineEnding_lost reached lineEnding
    rw [congrArg Prod.fst old, congrArg Prod.fst fresh, blankLines_run_lf_same, StaysUnseen]
    simp [lineEnding]
  · have mark : stage.1 = false ∧ (stage.2.2 ++ text).head? = some bomPoint :=
      not_not.mp fun noMark => lost ⟨lineEnding, noMark⟩
    obtain ⟨event, lines, whole, uncut, old, fresh⟩ := mark_lost reached mark
    rw [congrArg Prod.fst old, congrArg Prod.fst fresh, blankLines_mark uncut, ← whole, StaysUnseen]
    simp [lineEnding, mark]

/-- Where the frames agree nevertheless, the events left do not. -/
theorem handedOver_event (reached : Reached stage) (lost : ¬ CarriesText stage text)
    (same : (textMachine.run (handedOver stage) text).1 = (textMachine.run stage text).1) :
    ∃ point, (textMachine.run stage text).2.2.2 =
        point :: (textMachine.run (handedOver stage) text).2.2.2 ∨
      (textMachine.run (handedOver stage) text).2.2.2 =
        point :: (textMachine.run stage text).2.2.2 := by
  by_cases lineEnding : stage.2.1 = true ∧ stage.2.2 = [] ∧ text.head? = some lfPoint
  · obtain ⟨old, fresh⟩ := lineEnding_lost reached lineEnding
    rw [congrArg Prod.fst old, congrArg Prod.fst fresh] at same
    rw [congrArg Prod.snd old, congrArg Prod.snd fresh]
    exact ⟨lfPoint, Or.inr ((blankLines_run_lf _).1 same.symm)⟩
  · have mark : stage.1 = false ∧ (stage.2.2 ++ text).head? = some bomPoint :=
      not_not.mp fun noMark => lost ⟨lineEnding, noMark⟩
    obtain ⟨event, lines, -, -, old, fresh⟩ := mark_lost reached mark
    rw [congrArg Prod.fst old, congrArg Prod.fst fresh] at same
    rw [congrArg Prod.snd old, congrArg Prod.snd fresh]
    have different : bomPoint ≠ lfPoint := by decide
    rcases blankLines_run_cons bomPoint event lines (Or.inl different) with
      ⟨-, run⟩ | ⟨first, rest, some, run⟩
    · exact ⟨bomPoint, Or.inl (by rw [run])⟩
    · rw [run, some] at same
      exact absurd (congrArg List.length (List.cons.inj same).1) (by simp)

/-! ### The hand-over -/

namespace SseCall

/-- Feeds chunks in order. -/
def feedAll : List Chunk → Run (List PyStr)
  | [] => return []
  | chunk :: rest => do
    let frames ← feed chunk
    let later ← feedAll rest
    return frames ++ later

end SseCall

/-- **A parser that took a stream so far** is at a point of that stream. -/
theorem feedAll_reached {category : String} {others : Int} (remain : 0 ≤ others)
    (chunks : List Bytes) {call after : SseCall} {frames : List PyStr}
    (sound : call.parser.Sound) (running : call.parser.Running) (books : Books category others call)
    (reached : Reached call.parser.stage)
    (fed : SseCall.feedAll (chunks.map .bytes) call = (.ok frames, after)) :
    after.parser.Sound ∧ after.parser.Running ∧ Books category others after ∧
      Reached after.parser.stage := by
  induction chunks generalizing call frames with
  | nil =>
    cases fed
    exact ⟨sound, running, books, reached⟩
  | cons chunk rest ih =>
    rw [List.map_cons, SseCall.feedAll] at fed
    obtain ⟨first, middle, here, fed⟩ := Raise.bind_ok.mp fed
    obtain ⟨later, last, there, fed⟩ := Raise.bind_ok.mp fed
    cases fed
    have spec := feed_spec remain (.bytes chunk) sound running call ⟨rfl, books⟩
    rw [here] at spec
    obtain ⟨text, -, run⟩ := spec.fed
    have reachedMiddle : Reached middle.parser.stage := by
      have step := reached_run reached text
      rwa [run] at step
    exact ih spec.sound spec.running spec.books reachedMiddle there

/-- `pending_data` decodes to its text, and holds what the parser held. -/
theorem decode_pendingData {parser : SseParser} (sound : parser.Sound) :
    Utf8.decode [] parser.pendingData = some (pendingPoints parser.stage, parser.undecoded) := by
  obtain ⟨letters, event⟩ := sound.valid
  have pending : parser.pendingText = letters.map Char.toNat := SseParser.pendingText_encode event
  have last : parser.event.getLast? = some lfByte ↔ parser.pendingText.getLast? = some lfPoint := by
    rw [event, pending]
    have bytes := utf8_keepsLineEndings.getLast?_eq_lf letters
    have points := points_keepsLineEndings.getLast?_eq_lf letters
    rw [← List.map_eq_flatMap] at points
    exact bytes.trans points.symm
  have whole : ∀ text : List Char, Utf8.decode [] (Utf8.encode text ++ parser.undecoded) =
      some (text.map Char.toNat, parser.undecoded) := by
    intro text
    rw [Utf8.decode_append, Utf8.decode_encode]
    simp [Utf8.decode_held sound.held]
  unfold SseParser.pendingData pendingPoints SseParser.stage
  by_cases split : parser.trailingCr = true ∧ parser.event.getLast? = some lfByte
  · have splitText := (and_congr_right fun _ => last).mp split
    rw [if_pos split, if_pos splitText]
    have lastByte := split.2
    rw [event] at lastByte
    have lastLetter := (utf8_keepsLineEndings.getLast?_eq_lf letters).mp lastByte
    have cut : parser.event.dropLast ++ [crByte] = Utf8.encode (letters.dropLast ++ ['\r']) := by
      rw [event, Utf8.encode_append]
      exact congrArg (· ++ [crByte]) (utf8_keepsLineEndings.dropLast_flatMap lastLetter)
    rw [cut, whole, pending]
    simp
  · have splitText := (and_congr_right fun _ => last).not.mp split
    rw [if_neg split, if_neg splitText, event, whole, pending]

theorem event_text {event : List Char}
    (pending : stage.2.2 = event.map Char.toNat) (letters : List Char) :
    ∃ left : List Char, (textMachine.run stage (letters.map Char.toNat)).2.2.2 =
      left.map Char.toNat := by
  obtain ⟨lines, same⟩ := stages_text stage.1 stage.2.1 letters
  obtain ⟨_, left, -, run⟩ := blankLines_utf8 event lines
  refine ⟨left, ?_⟩
  rw [textMachine_event, linesOf, same, pending, run]

theorem handedOver_text {event : List Char} (pending : stage.2.2 = event.map Char.toNat) :
    ∃ after : List Char, (handedOver stage).2.2 = after.map Char.toNat := by
  unfold handedOver
  split
  · exact ⟨[], rfl⟩
  · refine Utf8.exists_text fun point member => ?_
    have inEvent : point ∈ stage.2.2 := by
      by_contra absent
      exact not_mem_removeMark absent member
    rw [pending] at inEvent
    obtain ⟨letter, -, rfl⟩ := List.mem_map.mp inEvent
    exact letter.valid

/-- Two events of which one has a symbol more end a stream differently. -/
theorem endingOf_cons (left : List Char) (point : CodePoint) (rest : PyStr)
    (same : left.map Char.toNat = point :: rest) :
    endingOf (some []) (point :: rest) ≠ endingOf (some []) rest := by
  cases left with
  | nil => cases same
  | cons letter letters =>
    obtain ⟨rfl, rfl⟩ := List.cons.inj same
    rw [endingOf, endingOf, ← List.map_cons, Utf8.encodePoints_toNat, Utf8.encodePoints_toNat]
    have longer : 0 < (String.utf8EncodeChar letter).length :=
      List.length_pos_of_ne_nil (utf8_keepsLineEndings.nonempty letter)
    cases letters with
    | nil => simp
    | cons second others =>
      intro same
      simp only [List.map_cons, ne_eq, reduceCtorEq, not_false_eq_true, not_true, if_true, if_false,
        Option.getD_some, Except.error.injEq, StreamError.incompleteEvent.injEq, Utf8.encode_cons,
        List.length_append] at same
      omega

theorem endingOf_broken {held : Option Bytes} (broken : held ≠ some []) (event event' : PyStr) :
    endingOf held event = endingOf held event' := by
  cases held with
  | none => rfl
  | some held =>
    have inside : held ≠ [] := fun empty => broken (by rw [empty])
    rw [endingOf, endingOf, if_pos inside, if_pos inside]

theorem readChunks_text {held : Bytes} (isHeld : Utf8.Held held) {chunks : List Bytes}
    (read : readChunks held chunks = (text, some [])) :
    ∃ letters : List Char, text = letters.map Char.toNat := by
  cases decoded : Utf8.decode held chunks.flatten with
  | some found =>
    obtain ⟨-, letters, same, -⟩ := Utf8.decode_sound isHeld decoded
    rw [readChunks_decoded decoded, Prod.mk.injEq] at read
    exact ⟨letters, read.1 ▸ same⟩
  | none =>
    have refused := (readChunks_refused decoded).1
    rw [read] at refused
    cases refused

/-- **Handing over**: the fresh parser gives what the old one would have given exactly if
`pending_data` carries the state over to the text read from the rest, or the stream breaks off
before a frame shows the difference. -/
theorem handOver (limits limits' : SseLimits) (budget budget' : RetainedBudget)
    (consistent : budget.Consistent) (consistent' : budget'.Consistent)
    (chunks rest : List Bytes) (frames : List PyStr) (old : SseCall)
    (fed : SseCall.feedAll (chunks.map .bytes) (SseCall.fresh limits budget) = (.ok frames, old))
    (granted : (drive (rest.map .bytes) old).exhausted = false)
    (granted' : (drive ((old.parser.pendingData :: rest).map .bytes)
      (SseCall.fresh limits' budget')).exhausted = false) :
    let read := readChunks old.parser.undecoded rest
    drive ((old.parser.pendingData :: rest).map .bytes) (SseCall.fresh limits' budget') =
        drive (rest.map .bytes) old ↔
      CarriesText old.parser.stage read.1 ∨
        (read.2 ≠ some [] ∧ StaysUnseen old.parser.stage read.1) := by
  obtain ⟨sound, running, books, reached⟩ := feedAll_reached consistent.1 chunks
    (SseParser.sound_new limits) (SseParser.running_new limits) (books_fresh limits consistent)
    reached_start fed
  have kept : drive (rest.map .bytes) old =
      streamResult old.parser.undecoded old.parser.stage rest :=
    drive_eq consistent.1 rest old sound running books granted
  have handed : drive ((old.parser.pendingData :: rest).map .bytes) (SseCall.fresh limits' budget') =
      streamResult old.parser.undecoded (handedOver old.parser.stage) rest := by
    rw [drive_fresh limits' consistent' _ granted', streamResult_cons (decode_pendingData sound),
      run_pendingPoints reached]
    rfl
  simp only [kept, handed, streamResult, StreamResult.mk.injEq]
  generalize isRead : readChunks old.parser.undecoded rest = read
  by_cases carries : CarriesText old.parser.stage read.1
  · obtain ⟨sameFrames, sameEvent⟩ := handedOver_same reached carries
    rw [sameFrames, sameEvent]
    simp [carries]
  have shown := handedOver_frames reached carries
  rw [shown, or_iff_right carries, and_comm]
  refine and_congr_left fun unseen => ?_
  constructor
  · intro sameEnding whole
    obtain ⟨before, event⟩ := sound.valid
    have pending : old.parser.stage.2.2 = before.map Char.toNat := SseParser.pendingText_encode event
    obtain ⟨after, pendingNew⟩ := handedOver_text pending
    obtain ⟨letters, isText⟩ := readChunks_text sound.held (isRead.trans (Prod.ext rfl whole))
    obtain ⟨left, leftEq⟩ := event_text pending letters
    obtain ⟨leftNew, leftNewEq⟩ := event_text pendingNew letters
    rw [← isText] at leftEq leftNewEq
    rw [whole] at sameEnding
    obtain ⟨point, more | more⟩ := handedOver_event reached carries (shown.mpr unseen)
    · exact endingOf_cons left point _ (leftEq.symm.trans more) (by rw [← more, sameEnding])
    · exact endingOf_cons leftNew point _ (leftNewEq.symm.trans more) (by rw [← more, sameEnding])
  · exact fun broken => endingOf_broken broken _ _

/-- A CRLF cut in the middle is handed over. -/
theorem handOver_cut_line_ending :
    drive ([(SseCall.feedAll ([Utf8.lit "a\n\ndata: b\r"].map .bytes)
          SseCall.unlimited).2.parser.pendingData, Utf8.lit "\n\r\n"].map .bytes)
        SseCall.unlimited =
      drive ([Utf8.lit "\n\r\n"].map .bytes)
        (SseCall.feedAll ([Utf8.lit "a\n\ndata: b\r"].map .bytes) SseCall.unlimited).2 :=
  (handOver ⟨0, 0, 4096, 0, by decide⟩ ⟨0, 0, 4096, 0, by decide⟩
    (RetainedBudget.fresh 1000 none "stream_parser") (RetainedBudget.fresh 1000 none "stream_parser")
    (consistent_fresh 1000 _) (consistent_fresh 1000 _)
    [Utf8.lit "a\n\ndata: b\r"] [Utf8.lit "\n\r\n"] [Utf8.points "a"] _
    (Raise.eq_of_returned (by decide +kernel)) (by decide +kernel) (by decide +kernel)).mpr
    (Or.inl ⟨by decide +kernel, by decide +kernel⟩)

/-- **The CR of a blank line is not carried over**: its LF becomes a line of the next event. -/
theorem handOver_loses_blank_line :
    let fed := SseCall.feedAll [.bytes (Utf8.lit "data: a\r\n\r")] SseCall.unlimited
    let rest := Chunk.bytes (Utf8.lit "\ndata: b\r\n\r\n")
    fed.1 = .ok [Utf8.points "data: a"] ∧
      drive [rest] fed.2 = ⟨[Utf8.points "data: b"], .ok ()⟩ ∧
      drive [.bytes fed.2.parser.pendingData, rest] SseCall.unlimited =
        ⟨[Utf8.points "\ndata: b"], .ok ()⟩ := by
  decide +kernel

end UniApi.Streaming
