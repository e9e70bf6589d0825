/-
**Event streams: lines, fields, and events dispatched at blank lines.**

A line is a field with a value. What the lines of an event say (`read`) is its name and its data lines;
an event with data gives a pair of name and joined data. `events` is the reference machine: it collects
lines and gives a pair at each blank line.

* `events_blankLines`: cutting the text at blank lines and reading each piece gives the same pairs;
* `dispatch_run_paragraphs`: the pairs are those of the paragraphs, the lines between blank lines;
* `eventStream_run_block`: over a raw block and its delimiter the machine gives the pairs of the
  paragraphs of the block, and is then where it started;
* `read_coded`: reading commutes with an encoding that keeps the signs.
-/

import UniApi.Lib.Cutting
import UniApi.Lib.LineEndings

set_option linter.unusedSectionVars false

namespace UniApi.Lib

variable {α β : Type*} [DecidableEq α] [DecidableEq β]

/-! ### Fields -/

/-- The signs of an event stream, and the names of its two fields. -/
structure EventSigns (α : Type*) where
  cr : α
  lf : α
  colon : α
  space : α
  eventField : List α
  dataField : List α
  different : cr ≠ lf
  eventField_ne : eventField ≠ []
  dataField_ne : dataField ≠ []

/-- A line as a field and its value. One space after the colon is dropped. -/
def fieldOf (signs : EventSigns α) (line : List α) : List α × List α :=
  match line.dropWhile (· ≠ signs.colon) with
  | [] => (line, [])
  | _ :: value => (line.takeWhile (· ≠ signs.colon), removeMark signs.space value)

/-- What the lines of an event say. -/
structure Reading (α : Type*) where
  event : Option (List α)
  data : List (List α)
  deriving DecidableEq

namespace Reading

/-- Nothing is said. -/
def empty : Reading α := ⟨none, []⟩

/-- One more line. -/
def take (signs : EventSigns α) (reading : Reading α) (line : List α) : Reading α :=
  let (field, value) := fieldOf signs line
  if field = signs.eventField then { reading with event := some value }
  else if field = signs.dataField then { reading with data := reading.data ++ [value] }
  else reading

/-- The name and the joined data of an event that carries data. -/
def pair? (signs : EventSigns α) (reading : Reading α) : Option (List α × List α) :=
  if reading.data = [] then none
  else some (reading.event.getD [], [signs.lf].intercalate reading.data)

end Reading

/-- What lines say together. -/
def read (signs : EventSigns α) (lines : List (List α)) : Reading α :=
  lines.foldl (Reading.take signs) Reading.empty

variable (signs : EventSigns α)

@[simp] theorem read_nil : read signs [] = Reading.empty := rfl

theorem read_append (first second : List (List α)) :
    read signs (first ++ second) = second.foldl (Reading.take signs) (read signs first) :=
  List.foldl_append

theorem read_concat (lines : List (List α)) (line : List α) :
    read signs (lines ++ [line]) = (read signs lines).take signs line := by
  rw [read_append]
  rfl

/-- A line without a field name says nothing: a blank line, or a comment. -/
theorem take_unnamed {reading : Reading α} {line : List α} (unnamed : (fieldOf signs line).1 = []) :
    reading.take signs line = reading := by
  unfold Reading.take
  simp only [unnamed, if_neg signs.eventField_ne.symm, if_neg signs.dataField_ne.symm]

theorem take_blank (reading : Reading α) : reading.take signs [] = reading :=
  take_unnamed signs rfl

theorem take_comment (reading : Reading α) (comment : List α) :
    reading.take signs (signs.colon :: comment) = reading :=
  take_unnamed signs (by simp [fieldOf])

theorem take_data (reading : Reading α) (line : List α) :
    (reading.take signs line).data = reading.data ++ (Reading.empty.take signs line).data := by
  unfold Reading.take Reading.empty
  simp only
  split
  · simp
  · split <;> simp

theorem foldl_take_data (reading : Reading α) (lines : List (List α)) :
    (lines.foldl (Reading.take signs) reading).data = reading.data ++ (read signs lines).data := by
  induction lines using List.reverseRecOn with
  | nil => simp [Reading.empty]
  | append_singleton before line ih =>
    rw [List.foldl_append, read_concat, List.foldl_cons, List.foldl_nil, take_data, ih,
      take_data signs (read signs before), List.append_assoc]

theorem read_append_data (first second : List (List α)) :
    (read signs (first ++ second)).data = (read signs first).data ++ (read signs second).data := by
  rw [read_append, foldl_take_data]

/-! ### Events -/

/-- Cuts a text into its complete lines. -/
def lines (lf : α) : Mealy (List α) α (List α) where
  step line symbol := if symbol = lf then ([line], []) else ([], line ++ [symbol])

/-- Gives the pair of an event at the next blank line. -/
def dispatch : Mealy (Reading α) (List α) (List α × List α) where
  step reading line :=
    if line = [] then ((reading.pair? signs).toList, Reading.empty)
    else ([], reading.take signs line)

/-- **The reference machine** over a text whose line endings are LF. -/
def events : Mealy (List α × Reading α) α (List α × List α) := (lines signs.lf).cascade (dispatch signs)

/-- The reference machine over a raw text. -/
def eventStream : Mealy (Bool × List α × Reading α) α (List α × List α) :=
  (newlines signs.cr signs.lf).cascade (events signs)

section Lines

variable {lf : α}

theorem lines_step_lf (line : List α) : (lines lf).step line lf = ([line], []) := by simp [lines]

theorem lines_step_plain (line : List α) {symbol : α} (plain : symbol ≠ lf) :
    (lines lf).step line symbol = ([], line ++ [symbol]) := by
  simp [lines, plain]

/-- **The lines of a text** are its complete lines and the last one. -/
theorem lines_run (text : List α) :
    ((lines lf).run [] text).1 ++ [((lines lf).run [] text).2] = text.splitOn lf := by
  have unchanged : ∀ parts : List (List α), parts.modifyHead ([] ++ ·) = parts := by
    intro parts
    cases parts <;> rfl
  have after : ∀ line, ((lines lf).run line text).1 ++ [((lines lf).run line text).2] =
      (text.splitOn lf).modifyHead (line ++ ·) := by
    induction text with
    | nil => simp
    | cons symbol rest ih =>
      intro line
      rw [List.splitOn_cons_eq_if_modifyHead, Mealy.run_cons]
      by_cases isLf : symbol = lf
      · have later := ih []
        rw [unchanged] at later
        rw [isLf, lines_step_lf, if_pos (beq_self_eq_true lf), ← later]
        simp
      · rw [lines_step_plain line isLf, if_neg (by simpa using isLf)]
        simp only [List.nil_append]
        rw [ih, List.modifyHead_modifyHead]
        congr 1
        funext head
        simp
  rw [after, unchanged]

theorem lines_run_state {text : List α} :
    ((lines lf).run [] text).2 = [] ↔ text = [] ∨ text.getLast? = some lf := by
  induction text using List.reverseRecOn with
  | nil => simp
  | append_singleton before symbol _ =>
    rw [Mealy.run_append]
    by_cases isLf : symbol = lf
    · simp [isLf, lines_step_lf]
    · simp [lines_step_plain _ isLf, isLf]

end Lines

theorem events_step_lf (line : List α) (reading : Reading α) :
    (events signs).step (line, reading) signs.lf =
      (((dispatch signs).step reading line).1, ([], ((dispatch signs).step reading line).2)) := by
  simp [events, Mealy.cascade, lines]

theorem events_step_plain (line : List α) (reading : Reading α) {symbol : α}
    (plain : symbol ≠ signs.lf) :
    (events signs).step (line, reading) symbol = ([], (line ++ [symbol], reading)) := by
  simp [events, Mealy.cascade, lines, plain]

theorem dispatch_step_blank (reading : Reading α) :
    (dispatch signs).step reading [] = ((reading.pair? signs).toList, Reading.empty) := rfl

theorem dispatch_step_line (reading : Reading α) {line : List α} (nonblank : line ≠ []) :
    (dispatch signs).step reading line = ([], reading.take signs line) := if_neg nonblank

/-! ### Cutting at blank lines -/

variable {signs}

/-- The machine has read the event collected: its complete lines and the beginning of the next. -/
def Collected (signs : EventSigns α) (event : List α) (state : List α × Reading α) : Prop :=
  state = (((lines signs.lf).run [] event).2, read signs ((lines signs.lf).run [] event).1)

/-- One symbol of a text, read and collected. -/
theorem events_step_collected {event : List α} {state : List α × Reading α}
    (collected : Collected signs event state) (symbol : α) :
    ((events signs).step state symbol).1 = (((blankLines signs.lf).step event symbol).1).filterMap
        (fun frame => (read signs (frame.splitOn signs.lf)).pair? signs) ∧
      Collected signs ((blankLines signs.lf).step event symbol).2
        ((events signs).step state symbol).2 := by
  obtain rfl := collected
  by_cases isLf : symbol = signs.lf
  · subst isLf
    rw [events_step_lf]
    by_cases last : event.getLast? = some signs.lf
    · -- a blank line: the event without its last LF is cut
      obtain ⟨before, rfl⟩ := List.getLast?_eq_some_iff.mp last
      have collects : (lines signs.lf).run [] (before ++ [signs.lf]) = (before.splitOn signs.lf, []) := by
        rw [Mealy.run_append, ← lines_run]
        simp [lines_step_lf]
      rw [blankLines_step_cut, collects, dispatch_step_blank]
      refine ⟨?_, rfl⟩
      cases found : (read signs (before.splitOn signs.lf)).pair? signs <;> simp [found]
    · rw [blankLines_step_keep fun cut => last cut.2]
      have after : (lines signs.lf).run [] (event ++ [signs.lf]) =
          (((lines signs.lf).run [] event).1 ++ [((lines signs.lf).run [] event).2], []) := by
        rw [Mealy.run_append]
        simp [lines_step_lf]
      unfold Collected
      rw [after, read_concat]
      by_cases blank : ((lines signs.lf).run [] event).2 = []
      · -- a blank line at the start of an event: nothing has been said yet
        have empty : event = [] := (lines_run_state.mp blank).resolve_right last
        subst empty
        rw [Mealy.run_nil, read_nil, take_blank]
        exact ⟨rfl, rfl⟩
      · rw [dispatch_step_line signs _ blank]
        exact ⟨rfl, rfl⟩
  · rw [events_step_plain signs _ _ isLf, blankLines_step_keep fun cut => isLf cut.1]
    refine ⟨rfl, ?_⟩
    unfold Collected
    rw [Mealy.run_append]
    simp [lines_step_plain _ isLf]

/-- **Cutting at blank lines and reading the pieces gives the pairs of the machine.** -/
theorem events_blankLines (signs : EventSigns α) (text : List α) :
    ((events signs).run ([], Reading.empty) text).1 =
      (((blankLines signs.lf).run [] text).1).filterMap
        (fun frame => (read signs (frame.splitOn signs.lf)).pair? signs) := by
  have along : ∀ event state, Collected signs event state →
      ((events signs).run state text).1 = (((blankLines signs.lf).run event text).1).filterMap
        (fun frame => (read signs (frame.splitOn signs.lf)).pair? signs) := by
    induction text with
    | nil => exact fun _ _ _ => rfl
    | cons symbol rest ih =>
      intro event state collected
      obtain ⟨here, after⟩ := events_step_collected collected symbol
      rw [Mealy.run_cons, Mealy.run_cons, List.filterMap_append, here, ih _ _ after]
  exact along [] _ rfl

/-! ### Paragraphs -/

/-- The paragraphs of lines: what stands between blank lines. -/
def paragraphs (lines : List (List α)) : List (List (List α)) := lines.splitOn []

/-- The pairs of paragraphs. -/
def pairsOf (signs : EventSigns α) (paragraphs : List (List (List α))) : List (List α × List α) :=
  paragraphs.filterMap fun paragraph => (read signs paragraph).pair? signs

/-- **The pairs dispatched are those of the paragraphs** that a blank line ends. -/
theorem dispatch_run_paragraphs (signs : EventSigns α) (lines : List (List α)) :
    ((dispatch signs).run Reading.empty lines).1 = pairsOf signs (paragraphs lines).dropLast := by
  have along : ∀ before : List (List α), [] ∉ before →
      ((dispatch signs).run (read signs before) lines).1 =
        pairsOf signs (paragraphs (before ++ lines)).dropLast := by
    induction lines with
    | nil =>
      intro before nonblank
      rw [List.append_nil, paragraphs, List.splitOn_eq_singleton nonblank]
      rfl
    | cons line rest ih =>
      intro before nonblank
      rw [Mealy.run_cons]
      by_cases blank : line = []
      · subst blank
        have later := ih [] (by simp)
        rw [read_nil, List.nil_append] at later
        have split : paragraphs (before ++ [] :: rest) = before :: paragraphs rest :=
          List.splitOn_append_cons_self_of_not_mem nonblank rest
        have kept : (before :: paragraphs rest).dropLast = before :: (paragraphs rest).dropLast :=
          List.dropLast_cons_of_ne_nil (List.splitOn_ne_nil _ _)
        rw [dispatch_step_blank, split, kept, later]
        cases found : (read signs before).pair? signs <;> simp [pairsOf, found]
      · have later := ih (before ++ [line]) (by simp [nonblank, Ne.symm blank])
        rw [dispatch_step_line signs _ blank, ← read_concat, later]
        simp
  simpa using along [] (by simp)

theorem dispatch_run_ended (signs : EventSigns α) (lines : List (List α)) :
    (dispatch signs).run Reading.empty (lines ++ [[]]) = (pairsOf signs (paragraphs lines), Reading.empty) := by
  have split : paragraphs (lines ++ [[]]) = paragraphs lines ++ [[]] :=
    List.splitOn_append_cons_self lines []
  refine Prod.ext ?_ ?_
  · rw [dispatch_run_paragraphs, split, List.dropLast_concat]
  · rw [Mealy.run_append]
    rfl

/-- Blank lines after a blank line dispatch nothing. -/
theorem dispatch_run_again (signs : EventSigns α) (lines : List (List α)) :
    (dispatch signs).run Reading.empty (lines ++ [[]] ++ [[]]) =
      (dispatch signs).run Reading.empty (lines ++ [[]]) := by
  rw [Mealy.run_append, dispatch_run_ended]
  exact Prod.ext (List.append_nil _) rfl

/-! ### Raw blocks -/

/-- The lines of a raw text. -/
def rawLines (signs : EventSigns α) (text : List α) : List (List α) :=
  (normalizeLines signs.cr signs.lf text).splitOn signs.lf

/-- The blank lines that end a block as they are written: two line endings of one kind. -/
def blockEnds (signs : EventSigns α) : List (List α) :=
  [[signs.lf, signs.lf], [signs.cr, signs.cr], [signs.cr, signs.lf, signs.cr, signs.lf]]

theorem events_run (signs : EventSigns α) (text : List α) :
    (events signs).run ([], Reading.empty) text =
      (((dispatch signs).run Reading.empty ((lines signs.lf).run [] text).1).1,
        ((lines signs.lf).run [] text).2,
        ((dispatch signs).run Reading.empty ((lines signs.lf).run [] text).1).2) :=
  Mealy.cascade_run _ _ _ _

theorem eventStream_run (signs : EventSigns α) (afterCr : Bool) (text : List α) :
    (eventStream signs).run (afterCr, [], Reading.empty) text =
      (((events signs).run ([], Reading.empty) ((newlines signs.cr signs.lf).run afterCr text).1).1,
        ((newlines signs.cr signs.lf).run afterCr text).2,
        ((events signs).run ([], Reading.empty) ((newlines signs.cr signs.lf).run afterCr text).1).2) :=
  Mealy.cascade_run _ _ _ _

/-- A blank line and its line ending give the pairs of all paragraphs before them. -/
theorem events_run_ended (signs : EventSigns α) (text : List α) :
    (events signs).run ([], Reading.empty) (text ++ [signs.lf, signs.lf]) =
      (pairsOf signs (paragraphs (text.splitOn signs.lf)), [], Reading.empty) := by
  have collects : (lines signs.lf).run [] (text ++ [signs.lf, signs.lf]) =
      (text.splitOn signs.lf ++ [[]], []) := by
    rw [Mealy.run_append, ← lines_run]
    simp [lines_step_lf]
  rw [events_run, collects, dispatch_run_ended]

theorem events_run_blank (signs : EventSigns α) (text : List α) :
    (events signs).run ([], Reading.empty) (text ++ [signs.lf] ++ [signs.lf]) =
      (events signs).run ([], Reading.empty) (text ++ [signs.lf] ++ [signs.lf, signs.lf]) := by
  have once : (lines signs.lf).run [] (text ++ [signs.lf] ++ [signs.lf]) =
      (text.splitOn signs.lf ++ [[]], []) := by
    rw [Mealy.run_append, Mealy.run_append, ← lines_run]
    simp [lines_step_lf]
  have twice : (lines signs.lf).run [] (text ++ [signs.lf] ++ [signs.lf, signs.lf]) =
      (text.splitOn signs.lf ++ [[]] ++ [[]], []) := by
    rw [Mealy.run_append, Mealy.run_append, ← lines_run]
    simp [lines_step_lf]
  rw [events_run, events_run, once, twice, dispatch_run_again]

/-- Behind the newline stage a blank line is two LF, or one where the LF belongs to a CR before it. -/
theorem newlines_run_ending (signs : EventSigns α) (afterCr : Bool) {ending : List α}
    (ends : ending ∈ blockEnds signs) :
    ((newlines signs.cr signs.lf).run afterCr ending).1 = [signs.lf, signs.lf] ∨
      afterCr = true ∧ ((newlines signs.cr signs.lf).run afterCr ending).1 = [signs.lf] := by
  have different := signs.different
  simp only [blockEnds, List.mem_cons, List.not_mem_nil, or_false] at ends
  rcases ends with rfl | rfl | rfl
  · cases afterCr with
    | false => simp [newlines, different.symm]
    | true => simp [newlines, different.symm]
  · simp [newlines_step_cr]
  · simp [newlines_step_cr, newlines_step_swallow different]

theorem newlines_run_afterCr (signs : EventSigns α) {text : List α}
    (afterCr : ((newlines signs.cr signs.lf).run false text).2 = true) :
    ∃ before, ((newlines signs.cr signs.lf).run false text).1 = before ++ [signs.lf] := by
  cases text using List.reverseRecOn with
  | nil => cases afterCr
  | append_singleton before symbol =>
    rw [newlines_run_state _ (by simp)] at afterCr
    have isCr : symbol = signs.cr := by simpa using afterCr
    rw [Mealy.run_append, isCr]
    simp [newlines_step_cr]

/-- **A raw block and the blank line after it** give the pairs of its paragraphs, and leave the machine
where it started, but for a CR. -/
theorem eventStream_run_block (signs : EventSigns α) (body : List α) {ending : List α}
    (ends : ending ∈ blockEnds signs) :
    ∃ afterCr, (eventStream signs).run (false, [], Reading.empty) (body ++ ending) =
      (pairsOf signs (paragraphs (rawLines signs body)), afterCr, [], Reading.empty) := by
  refine ⟨((newlines signs.cr signs.lf).run false (body ++ ending)).2, ?_⟩
  have normalized := newlines_run signs.different body
  rw [eventStream_run]
  have read : (events signs).run ([], Reading.empty)
      ((newlines signs.cr signs.lf).run false (body ++ ending)).1 =
        (pairsOf signs (paragraphs (rawLines signs body)), [], Reading.empty) := by
    rw [Mealy.run_append, rawLines, ← normalized]
    rcases newlines_run_ending signs _ ends with two | ⟨afterCr, one⟩
    · rw [two]
      exact events_run_ended signs _
    · obtain ⟨before, same⟩ := newlines_run_afterCr signs afterCr
      rw [one, same]
      exact (events_run_blank signs before).trans (events_run_ended signs _)
  rw [read]

/-- **An LF after the CR of a blank line** dispatches nothing. -/
theorem eventStream_run_afterCr (signs : EventSigns α) (afterCr : Bool) (text : List α) :
    ((eventStream signs).run (afterCr, [], Reading.empty) text).1 =
      ((eventStream signs).run (false, [], Reading.empty) text).1 := by
  cases afterCr with
  | false => rfl
  | true =>
    rw [eventStream_run, eventStream_run, (newlines_run_true signs.different text).1]
    simp only
    split
    · rename_i startsLf
      obtain ⟨rest, rfl⟩ := List.head?_eq_some_iff.mp startsLf
      have step : (newlines signs.cr signs.lf).step false signs.lf = ([signs.lf], false) :=
        newlines_step_plain false signs.different.symm (by simp)
      have blank : (events signs).step ([], Reading.empty) signs.lf = ([], [], Reading.empty) :=
        events_step_lf signs [] Reading.empty
      rw [Mealy.run_cons, step]
      simp [blank]
    · rfl

/-- The pairs of the paragraphs that a blank line ends. -/
def endedPairs (signs : EventSigns α) (text : List α) : List (List α × List α) :=
  pairsOf signs (paragraphs (rawLines signs text).dropLast).dropLast

/-- A raw text gives the pairs of the paragraphs that a blank line ends. -/
theorem eventStream_run_rest (signs : EventSigns α) (text : List α) :
    ((eventStream signs).run (false, [], Reading.empty) text).1 = endedPairs signs text := by
  rw [eventStream_run, events_run, newlines_run signs.different, dispatch_run_paragraphs, endedPairs,
    rawLines, ← lines_run, List.dropLast_concat]

/-- **Raw blocks and a rest** give the pairs of the paragraphs of each block, and of the rest. -/
theorem eventStream_run_blocks (signs : EventSigns α) {blocks : List (Block α)}
    (ends : ∀ block ∈ blocks, block.delimiter ∈ blockEnds signs) (rest : List α) :
    ((eventStream signs).run (false, [], Reading.empty) (blocks.flatMap Block.wire ++ rest)).1 =
      blocks.flatMap (fun block => pairsOf signs (paragraphs (rawLines signs block.body))) ++
        endedPairs signs rest := by
  induction blocks with
  | nil => exact eventStream_run_rest signs rest
  | cons block later ih =>
    obtain ⟨afterCr, run⟩ := eventStream_run_block signs block.body (ends block List.mem_cons_self)
    have further := ih fun other member => ends other (List.mem_cons_of_mem _ member)
    rw [List.flatMap_cons, List.append_assoc, Mealy.run_append, Block.wire, run]
    simp only [eventStream_run_afterCr, further, List.flatMap_cons, List.append_assoc]

/-! ### One event or many -/

/-- The paragraph carries data. -/
def Carries (signs : EventSigns α) (paragraph : List (List α)) : Prop :=
  (read signs paragraph).data ≠ []

instance (signs : EventSigns α) : DecidablePred (Carries signs) := fun paragraph =>
  inferInstanceAs (Decidable ((read signs paragraph).data ≠ []))

theorem pair?_eq_none_iff (signs : EventSigns α) (lines : List (List α)) :
    (read signs lines).pair? signs = none ↔ ¬ Carries signs lines := by
  unfold Reading.pair? Carries
  split <;> simp_all

/-- The data lines of a text are those of its paragraphs. -/
theorem read_data_paragraphs (signs : EventSigns α) (lines : List (List α)) :
    (read signs lines).data = (paragraphs lines).flatMap fun paragraph => (read signs paragraph).data := by
  have along : ∀ before : List (List α), [] ∉ before →
      (read signs (before ++ lines)).data =
        (paragraphs (before ++ lines)).flatMap fun paragraph => (read signs paragraph).data := by
    induction lines with
    | nil =>
      intro before nonblank
      rw [List.append_nil, paragraphs, List.splitOn_eq_singleton nonblank]
      simp
    | cons line rest ih =>
      intro before nonblank
      by_cases blank : line = []
      · subst blank
        have later := ih [] (by simp)
        rw [List.nil_append] at later
        have split : paragraphs (before ++ [] :: rest) = before :: paragraphs rest :=
          List.splitOn_append_cons_self_of_not_mem nonblank rest
        have skipped : read signs ([] :: rest) = read signs rest := by
          simp only [read, List.foldl_cons, take_blank]
        rw [split, List.flatMap_cons, ← later, read_append_data, skipped]
      · have later := ih (before ++ [line]) (by simp [nonblank, Ne.symm blank])
        simpa using later
  simpa using along [] (by simp)

/-- Lines with data have a paragraph that carries it. -/
theorem exists_carries {signs : EventSigns α} {lines : List (List α)}
    (data : (read signs lines).data ≠ []) : ∃ paragraph ∈ paragraphs lines, Carries signs paragraph := by
  by_contra none
  refine data ?_
  rw [read_data_paragraphs, List.flatMap_eq_nil_iff]
  intro paragraph member
  by_contra carries
  exact none ⟨paragraph, member, carries⟩

/-- **Lines taken as one event say what their paragraphs say**: at most one paragraph carries data, and
it says what the lines `seen` say together. -/
structure OneEvent (signs : EventSigns α) (lines seen : List (List α)) : Prop where
  single : ((paragraphs lines).filter (Carries signs)).length ≤ 1
  same : ∀ paragraph ∈ paragraphs lines, Carries signs paragraph →
    (read signs paragraph).pair? signs = (read signs seen).pair? signs

section OneEvent

variable {signs : EventSigns α} {lines seen : List (List α)}

theorem pairsOf_filter (paragraphs : List (List (List α))) :
    pairsOf signs paragraphs = pairsOf signs (paragraphs.filter (Carries signs)) := by
  unfold pairsOf
  rw [List.filterMap_filter]
  congr 1
  funext paragraph
  by_cases carries : Carries signs paragraph
  · simp [carries]
  · simp [carries, (pair?_eq_none_iff signs paragraph).mpr carries]

theorem pairsOf_length (paragraphs : List (List (List α))) :
    (pairsOf signs paragraphs).length = (paragraphs.filter (Carries signs)).length := by
  induction paragraphs with
  | nil => rfl
  | cons paragraph rest ih =>
    unfold pairsOf at ih ⊢
    by_cases carries : Carries signs paragraph
    · obtain ⟨pair, here⟩ := Option.ne_none_iff_exists'.mp
        fun none => (pair?_eq_none_iff signs paragraph).mp none carries
      simp [here, carries, ih]
    · simp [(pair?_eq_none_iff signs paragraph).mpr carries, carries, ih]

/-- One event is at most as many pairs as the paragraphs give. -/
theorem pair?_length_le (dataFrom : Carries signs seen → ∃ paragraph ∈ paragraphs lines,
    Carries signs paragraph) :
    ((read signs seen).pair? signs).toList.length ≤ (pairsOf signs (paragraphs lines)).length := by
  rw [pairsOf_length]
  by_cases carries : Carries signs seen
  · obtain ⟨paragraph, member, carrier⟩ := dataFrom carries
    have some : 0 < ((paragraphs lines).filter (Carries signs)).length :=
      List.length_pos_of_mem (List.mem_filter.mpr ⟨member, by simpa using carrier⟩)
    exact Nat.le_trans (Option.length_toList_le) some
  · simp [(pair?_eq_none_iff signs seen).mpr carries]

/-- **One event gives the pairs of the paragraphs** exactly if it says what they say. -/
theorem pair?_eq_pairsOf_iff (dataFrom : Carries signs seen → ∃ paragraph ∈ paragraphs lines,
    Carries signs paragraph) :
    ((read signs seen).pair? signs).toList = pairsOf signs (paragraphs lines) ↔
      OneEvent signs lines seen := by
  have size : (pairsOf signs (paragraphs lines)).length = _ := pairsOf_length (paragraphs lines)
  constructor
  · intro agree
    refine ⟨?_, fun paragraph member carries => ?_⟩
    · rw [← size, ← agree]
      exact Option.length_toList_le
    · obtain ⟨pair, here⟩ := Option.ne_none_iff_exists'.mp
        fun none => (pair?_eq_none_iff signs paragraph).mp none carries
      have given : pair ∈ pairsOf signs (paragraphs lines) :=
        List.mem_filterMap.mpr ⟨paragraph, member, here⟩
      rw [← agree, Option.mem_toList] at given
      rw [here]
      exact given.symm
  · rintro ⟨single, same⟩
    rw [pairsOf_filter]
    cases carriers : (paragraphs lines).filter (Carries signs) with
    | nil =>
      have silent : ¬ Carries signs seen := by
        intro carries
        obtain ⟨paragraph, member, carrier⟩ := dataFrom carries
        have listed : paragraph ∈ (paragraphs lines).filter (Carries signs) :=
          List.mem_filter.mpr ⟨member, by simpa using carrier⟩
        rw [carriers] at listed
        cases listed
      rw [(pair?_eq_none_iff signs seen).mpr silent]
      rfl
    | cons paragraph others =>
      have alone : others = [] := by
        rw [carriers, List.length_cons] at single
        exact List.eq_nil_of_length_eq_zero (by omega)
      have listed : paragraph ∈ (paragraphs lines).filter (Carries signs) := by
        rw [carriers]
        exact List.mem_cons_self
      obtain ⟨member, carries⟩ := List.mem_filter.mp listed
      rw [alone, ← same paragraph member (by simpa using carries)]
      cases found : (read signs paragraph).pair? signs <;> simp [pairsOf, found]

end OneEvent

/-- **Lists put together from pieces that are never longer** are equal only piece by piece. -/
theorem flatMap_eq_append_iff {γ δ : Type*} {items : List γ} {some others : γ → List δ} (rest : List δ)
    (fewer : ∀ item ∈ items, (some item).length ≤ (others item).length) :
    items.flatMap some = items.flatMap others ++ rest ↔
      (∀ item ∈ items, some item = others item) ∧ rest = [] := by
  have less : ∀ items : List γ, (∀ item ∈ items, (some item).length ≤ (others item).length) →
      (items.flatMap some).length ≤ (items.flatMap others).length := by
    intro items
    induction items with
    | nil => simp
    | cons item later ih =>
      intro fewer
      have here := fewer item List.mem_cons_self
      have there := ih fun other member => fewer other (List.mem_cons_of_mem _ member)
      simp only [List.flatMap_cons, List.length_append]
      omega
  induction items with
  | nil => simp [eq_comm]
  | cons item later ih =>
    have here := fewer item List.mem_cons_self
    have fewerLater := fun other member => fewer other (List.mem_cons_of_mem item member)
    have there := less later fewerLater
    constructor
    · intro same
      rw [List.flatMap_cons, List.flatMap_cons, List.append_assoc] at same
      have sizes := congrArg List.length same
      simp only [List.length_append] at sizes
      obtain ⟨first, second⟩ := List.append_inj same (by omega)
      obtain ⟨each, none⟩ := (ih fewerLater).mp second
      exact ⟨by simpa using ⟨first, each⟩, none⟩
    · rintro ⟨each, rfl⟩
      have second := (ih fewerLater).mpr ⟨fun other member => each other (List.mem_cons_of_mem _ member), rfl⟩
      rw [List.flatMap_cons, List.flatMap_cons, each item List.mem_cons_self, second, List.append_assoc]

end UniApi.Lib
