/-
**The objects of a Gemini stream: `_BoundedJSONObjectAccumulator`.**

The answer of Gemini without server-sent events is a JSON array in any layout, which comes in lines. The
accumulator counts brackets and cuts the objects out of the lines.

* `appendSlice`, `feedLine`, `finish`: the two accumulators;
* `IsDocument`: an array of objects, or one object, with the places of its letters;
* `Cut`: the lines of a text;
* `feedLines_reads`: from line to line the accumulator is where the text is;
* `IsDocument.unified`: one form for all line endings is a layout of its own.
-/

import UniApi.Lib.JsonDepth
import UniApi.Lib.PyText

namespace UniApi.Providers.GeminiFraming

open UniApi.Lib
open UniApi.Lib.Json (Brackets bracketsOf IsObjectText)

/-! ### Text in parts -/

/-- What framing raises. -/
inductive FramingError where
  /-- `SSEProtocolError`. -/
  | protocol (message : String)
  /-- `SSEOutputLimitError`. -/
  | outputLimit (outputName : String) (limit observed : ℕ)
  /-- `SSEBufferOverflowError`. -/
  | bufferOverflow (bufferName : String) (limitBytes observedBytes : ℕ)
  /-- `UnicodeEncodeError`. -/
  | unicode
  /-- `AssertionError`. -/
  | assertion
  /-- `ValueError`. -/
  | value (message : String)

/-- `_BoundedTextAccumulator`, whose reservations are granted. -/
structure TextAccumulator where
  label : String
  limitBytes : ℕ
  maxParts : ℕ := 4096
  parts : List PyText := []
  totalBytes : ℕ := 0

/-- `append_slice`. -/
def TextAccumulator.appendSlice (text : TextAccumulator) (source : PyText) (start stop : ℕ)
    (suffix : PyText) :
    Except FramingError TextAccumulator :=
  if text.maxParts ≤ text.parts.length then
    .error (.outputLimit (text.label ++ " fragments") text.maxParts (text.maxParts + 1))
  else
    let value := (source.take stop).drop start ++ suffix
    match Utf8.encodePoints value with
    | none => .error .unicode
    | some bytes =>
      let observed := text.totalBytes + bytes.length
      if text.limitBytes < observed then .error (.bufferOverflow text.label text.limitBytes observed)
      else .ok { text with parts := text.parts ++ [value], totalBytes := observed }

/-- `take_text`. -/
def TextAccumulator.takeText (text : TextAccumulator) : PyText × TextAccumulator :=
  (text.parts.flatten, { text with parts := [], totalBytes := 0 })

/-! ### Objects -/

/-- `_BoundedJSONObjectAccumulator`. -/
structure ObjectAccumulator extends Brackets where
  text : TextAccumulator
  maxFramesPerFeed : ℕ
  started : Bool := false

/-- `__init__`. -/
def ObjectAccumulator.new (label : String) (limitBytes maxFramesPerFeed : ℕ) :
    Except FramingError ObjectAccumulator :=
  if maxFramesPerFeed = 0 then .error (.value "max_frames_per_feed must be positive")
  else .ok { text := { label, limitBytes }, maxFramesPerFeed }

/-- The brackets and strings of a letter. -/
def ObjectAccumulator.scan (state : ObjectAccumulator) (char : CodePoint) :
    Except FramingError ObjectAccumulator :=
  if state.inString then
    if state.escaped then .ok { state with escaped := false }
    else if char = 92 then .ok { state with escaped := true }
    else if char = 34 then .ok { state with inString := false }
    else .ok state
  else if char = 34 then .ok { state with inString := true }
  else if char = 123 ∨ char = 91 then .ok { state with depth := state.depth + 1 }
  else if char = 125 ∨ char = 93 then
    if state.depth - 1 < 0 then .error (.protocol "Gemini JSON stream has unbalanced brackets")
    else .ok { state with depth := state.depth - 1 }
  else .ok state

/-- The variables of `feed_line`. -/
structure Feeding where
  state : ObjectAccumulator
  frames : List PyText := []
  segmentStart : Option ℕ

/-- The end of an object. -/
def Feeding.endObject (feeding : Feeding) (line : PyText) (index : ℕ) : Except FramingError Feeding :=
  match feeding.segmentStart with
  | none => .error .assertion
  | some start =>
    let limit := feeding.state.maxFramesPerFeed
    if limit ≤ feeding.frames.length then .error (.outputLimit "Gemini JSON objects" limit (limit + 1))
    else do
      let text ← feeding.state.text.appendSlice line start (index + 1) []
      return {
        state := { feeding.state with text := text.takeText.2, started := false }
        frames := feeding.frames ++ [text.takeText.1]
        segmentStart := none }

/-- A letter of an object. -/
def Feeding.feedObject (feeding : Feeding) (line : PyText) (index : ℕ) (char : CodePoint) :
    Except FramingError Feeding := do
  let state ← feeding.state.scan char
  if state.started ∧ state.depth = 0 then Feeding.endObject { feeding with state } line index
  else return { feeding with state }

/-- The letters between two objects. -/
def isSkipped (char : CodePoint) : Bool := PyText.isSpace char || char ∈ Utf8.points "[, ]"

/-- A letter of a line. -/
def Feeding.feedLetter (feeding : Feeding) (line : PyText) (index : ℕ) (char : CodePoint) :
    Except FramingError Feeding :=
  if feeding.state.started then feeding.feedObject line index char
  else if isSkipped char then .ok feeding
  else if char ≠ 123 then .error (.protocol "Gemini JSON stream contains a non-object array item")
  else
    let state := { feeding.state with toBrackets := {}, started := true }
    Feeding.feedObject { feeding with state, segmentStart := some index } line index char

/-- The letters of a line from an index on. -/
def Feeding.feedLetters (line : PyText) : ℕ → List CodePoint → Feeding → Except FramingError Feeding
  | _, [], feeding => .ok feeding
  | index, char :: rest, feeding => do
    feedLetters line (index + 1) rest (← feeding.feedLetter line index char)

/-- The rest of a line belongs to an object that goes on. -/
def Feeding.endLine (feeding : Feeding) (line : PyText) : Except FramingError
    (List PyText × ObjectAccumulator) :=
  if feeding.state.started then
    match feeding.segmentStart with
    | none => .error .assertion
    | some start => do
      let text ← feeding.state.text.appendSlice line start line.length [10]
      return (feeding.frames, { feeding.state with text })
  else .ok (feeding.frames, feeding.state)

/-- `feed_line`. -/
def ObjectAccumulator.feedLine (state : ObjectAccumulator) (line : PyText) :
    Except FramingError (List PyText × ObjectAccumulator) := do
  let feeding ← Feeding.feedLetters line 0 line
    { state, segmentStart := if state.started then some 0 else none }
  feeding.endLine line

/-- `finish`. -/
def ObjectAccumulator.finish (state : ObjectAccumulator) : Except FramingError Unit :=
  if state.started then .error (.protocol "Gemini JSON stream ended with an incomplete object") else .ok ()

/-- The lines of a stream, one after the other. -/
def ObjectAccumulator.feedLines : ObjectAccumulator → List PyText →
    Except FramingError (List PyText × ObjectAccumulator)
  | state, [] => .ok ([], state)
  | state, line :: rest => do
    let (frames, state) ← state.feedLine line
    let (more, state) ← state.feedLines rest
    return (frames ++ more, state)

/-! ### Documents -/

/-- Where a letter stands: between the elements, in an element, or at the end of one. -/
inductive Place where
  | gap
  | inside
  | last
  deriving DecidableEq

/-- The letters of a text, and where they stand. -/
abbrev Marked := List (CodePoint × Place)

def Marked.letters (text : Marked) : PyText := text.map Prod.fst

/-- How many elements end in a text. -/
def Marked.ends (text : Marked) : ℕ := text.countP fun letter => letter.2 = .last

/-- A text between the elements. -/
def asGap (text : PyText) : Marked := text.map fun letter => (letter, .gap)

/-- The text of an element. -/
def asElement : PyText → Marked
  | [] => []
  | [letter] => [(letter, .last)]
  | letter :: rest => (letter, .inside) :: asElement rest

/-- An element of an array, with the white space around it. -/
structure Item where
  before : PyText
  text : PyText
  behind : PyText
  isObject : IsObjectText text
  spaceBefore : before.all Json.isSpace = true
  spaceBehind : behind.all Json.isSpace = true

def Item.marked (item : Item) : Marked := asGap item.before ++ asElement item.text ++ asGap item.behind

/-- The items of an array, with commas between them. -/
def joined (items : List Item) : Marked := [(44, .gap)].intercalate (items.map Item.marked)

/-- **An array of objects in any layout, or a single object.** -/
inductive IsDocument : Marked → List PyText → Prop
  | array {lead trail : PyText} (first : Item) (rest : List Item) (leadSpace : lead.all Json.isSpace = true)
      (trailSpace : trail.all Json.isSpace = true) :
      IsDocument (asGap (lead ++ [91]) ++ (joined (first :: rest) ++ asGap (93 :: trail)))
        ((first :: rest).map Item.text)
  | empty {lead inner trail : PyText} (leadSpace : lead.all Json.isSpace = true)
      (innerSpace : inner.all Json.isSpace = true) (trailSpace : trail.all Json.isSpace = true) :
      IsDocument (asGap (lead ++ 91 :: (inner ++ 93 :: trail))) []
  | object (item : Item) : IsDocument item.marked [item.text]

/-- **The lines of a text**, cut at its line feeds. Behind the last line a line feed may stand. -/
inductive Cut : List Marked → Marked → Prop
  | empty : Cut [] []
  | last (line : Marked) : Cut [line] line
  | more (line : Marked) (place : Place) {lines : List Marked} {rest : Marked} (cut : Cut lines rest) :
      Cut (line :: lines) (line ++ (10, place) :: rest)

/-- The text of an element is below the limits. -/
structure Fits (base : TextAccumulator) (text : PyText) : Prop where
  bytes : ∃ bytes, Utf8.encodePoints text = some bytes ∧ bytes.length ≤ base.limitBytes
  lines : text.count 10 < base.maxParts

/-! ### The gaps of a document -/

/-- What the accumulator sees of a document: letters that it skips, and elements. -/
inductive Gaps : Marked → List PyText → Prop
  | nil : Gaps [] []
  | skip {letter : CodePoint} {todo : Marked} {elements : List PyText} (skipped : isSkipped letter = true)
      (gaps : Gaps todo elements) : Gaps ((letter, .gap) :: todo) elements
  | element {text : PyText} {todo : Marked} {elements : List PyText} (isObject : IsObjectText text)
      (gaps : Gaps todo elements) : Gaps (asElement text ++ todo) (text :: elements)

theorem isSkipped_of_space {letter : CodePoint} (space : Json.isSpace letter = true) :
    isSkipped letter = true := by
  have cases : letter = 32 ∨ letter = 9 ∨ letter = 10 ∨ letter = 13 := by
    simpa [Json.isSpace, or_assoc] using space
  rcases cases with rfl | rfl | rfl | rfl <;> rfl

variable {elements : List PyText} {todo : Marked} {text : Marked}

theorem Gaps.skips {letters : PyText}
    (skipped : ∀ letter ∈ letters, isSkipped letter = true) (gaps : Gaps todo elements) :
    Gaps (asGap letters ++ todo) elements := by
  induction letters with
  | nil => exact gaps
  | cons letter rest ih =>
    refine .skip (skipped letter List.mem_cons_self) (ih fun other among => ?_)
    exact skipped other (List.mem_cons_of_mem _ among)

theorem skipped_of_spaces {letters : PyText} (spaces : letters.all Json.isSpace = true) :
    ∀ letter ∈ letters, isSkipped letter = true :=
  fun letter among => isSkipped_of_space (List.all_eq_true.mp spaces letter among)

theorem Gaps.item (item : Item) (gaps : Gaps todo elements) :
    Gaps (item.marked ++ todo) (item.text :: elements) := by
  rw [Item.marked, List.append_assoc, List.append_assoc]
  exact .skips (skipped_of_spaces item.spaceBefore)
    (.element item.isObject (.skips (skipped_of_spaces item.spaceBehind) gaps))

theorem joined_cons (item second : Item) (rest : List Item) :
    joined (item :: second :: rest) = item.marked ++ (44, .gap) :: joined (second :: rest) := by
  simp [joined, List.intercalate]

theorem Gaps.items (gaps : Gaps todo []) : (items : List Item) →
    Gaps (joined items ++ todo) (items.map Item.text)
  | [] => gaps
  | [item] => by
    have one : joined [item] = item.marked := List.append_nil _
    rw [one]
    exact .item item gaps
  | item :: second :: rest => by
    rw [joined_cons, List.append_assoc]
    exact .item item (.skip rfl (Gaps.items gaps (second :: rest)))

theorem IsDocument.gaps (isDocument : IsDocument text elements) :
    Gaps text elements := by
  have bracket (front : PyText) {letter : CodePoint} {behind : PyText} (skipped : isSkipped letter = true)
      (frontSpace : front.all Json.isSpace = true)
        (behindSkipped : ∀ letter ∈ behind, isSkipped letter = true) :
      ∀ other ∈ front ++ letter :: behind, isSkipped other = true :=
    List.forall_mem_append.mpr
      ⟨skipped_of_spaces frontSpace, List.forall_mem_cons.mpr ⟨skipped, behindSkipped⟩⟩
  cases isDocument with
  | array first rest leadSpace trailSpace =>
    have behind : Gaps (asGap (93 :: _) ++ []) [] :=
      .skips (bracket [] rfl rfl (skipped_of_spaces trailSpace)) .nil
    rw [List.append_nil] at behind
    exact .skips (bracket _ rfl leadSpace (List.forall_mem_nil _)) (.items behind (first :: rest))
  | empty leadSpace innerSpace trailSpace =>
    rw [← List.append_nil (asGap _)]
    exact .skips (bracket _ rfl leadSpace (bracket _ rfl innerSpace (skipped_of_spaces trailSpace))) .nil
  | object item =>
    rw [← List.append_nil item.marked]
    exact .item item .nil

/-! ### Where the accumulator is -/

theorem encodePoints_concat {first second : PyText} {front behind : Bytes}
    (encodesFirst : Utf8.encodePoints first = some front)
      (encodesSecond : Utf8.encodePoints second = some behind) :
    Utf8.encodePoints (first ++ second) = some (front ++ behind) := by
  obtain ⟨left, rfl, rfl⟩ := Utf8.encodePoints_eq_some_iff.mp encodesFirst
  obtain ⟨right, rfl, rfl⟩ := Utf8.encodePoints_eq_some_iff.mp encodesSecond
  rw [← List.map_append, Utf8.encodePoints_toNat, Utf8.encode_append]

theorem encodePoints_pos {text : PyText} {bytes : Bytes} (encodes : Utf8.encodePoints text = some bytes)
    (nonempty : text ≠ []) : 0 < bytes.length := by
  obtain ⟨letters, rfl, rfl⟩ := Utf8.encodePoints_eq_some_iff.mp encodes
  cases letters with
  | nil => exact absurd rfl nonempty
  | cons letter rest =>
    rw [Utf8.encode_cons, List.length_append]
    have one : (String.utf8EncodeChar letter).length = letter.utf8Size :=
        String.length_utf8EncodeChar letter
    have pos := letter.utf8Size_pos
    omega

/-- The parts of an element that has begun: each ends with the line feed that cut it. -/
structure Holds (base text : TextAccumulator) (held : PyText) : Prop where
  same : text = { base with parts := text.parts, totalBytes := text.totalBytes }
  parts : text.parts.flatten = held
  lines : text.parts.length ≤ held.count 10
  bytes : ∃ bytes, Utf8.encodePoints held = some bytes ∧ text.totalBytes = bytes.length

/-- An accumulator without text. -/
def IsBase (base : TextAccumulator) : Prop := base.parts = [] ∧ base.totalBytes = 0

theorem IsBase.holds {base : TextAccumulator} (isBase : IsBase base) : Holds base base [] where
  same := rfl
  parts := by rw [isBase.1]; rfl
  lines := by rw [isBase.1]; rfl
  bytes := ⟨[], rfl, isBase.2⟩

/-- **A slice** that stays below the limits is appended. -/
theorem Holds.append {base text : TextAccumulator} {held value suffix source : PyText} {start stop : ℕ}
    (holds : Holds base text held) (isValue : (source.take stop).drop start ++ suffix = value)
    (lines : held.count 10 < base.maxParts)
    (small : ∃ bytes, Utf8.encodePoints (held ++ value) = some bytes ∧ bytes.length ≤ base.limitBytes) :
    ∃ total bytes, Utf8.encodePoints (held ++ value) = some bytes ∧ total = bytes.length ∧
      text.appendSlice source start stop suffix =
        .ok { base with parts := text.parts ++ [value], totalBytes := total } := by
  obtain ⟨bytes, encodes, small⟩ := small
  obtain ⟨front, behind, encodesHeld, encodesValue, rfl⟩ := Utf8.encodePoints_append encodes
  obtain ⟨known, encodesKnown, total⟩ := holds.bytes
  obtain rfl := Option.some.inj (encodesKnown.symm.trans encodesHeld)
  refine ⟨_, _, encodes, rfl, ?_⟩
  have few : ¬ base.maxParts ≤ text.parts.length := by
    have := holds.lines
    omega
  have maxParts : text.maxParts = base.maxParts := by rw [holds.same]
  have limitBytes : text.limitBytes = base.limitBytes := by rw [holds.same]
  have observed : ¬ base.limitBytes < text.totalBytes + behind.length := by
    rw [List.length_append] at small
    omega
  rw [TextAccumulator.appendSlice, maxParts, if_neg few, isValue]
  dsimp only
  rw [encodesValue, limitBytes]
  refine (if_neg observed).trans ?_
  rw [holds.same, total, List.length_append]

/-- The accumulator is in an element: `done` has been read, and `more` is to come. -/
structure Within (base : TextAccumulator) (maxFrames : ℕ) (before : PyText) (state : ObjectAccumulator)
    (segment : Option ℕ) (done more : PyText) : Prop where
  started : state.started = true
  limit : state.maxFramesPerFeed = maxFrames
  brackets : state.toBrackets = bracketsOf done
  segment : ∃ start held, segment = some start ∧ start ≤ before.length ∧ Holds base state.text held ∧
    held ++ before.drop start = done
  isObject : IsObjectText (done ++ more)
  fits : Fits base (done ++ more)

/-- Where the accumulator is in a text, behind `before` in its line. -/
inductive Reads (base : TextAccumulator) (maxFrames : ℕ) (before : PyText) (state : ObjectAccumulator)
    (segment : Option ℕ) (todo : Marked) (elements : List PyText) : Prop
  | idle (stopped : state.started = false)
      (limit : state.maxFramesPerFeed = maxFrames) (text : state.text = base) (unset : segment = none)
      (gaps : Gaps todo elements) (fits : ∀ text ∈ elements, Fits base text) :
      Reads base maxFrames before state segment todo elements
  | within {done more : PyText} {rest : Marked} {others : List PyText}
      (within : Within base maxFrames before state segment done more) (begun : done ≠ [])
        (unfinished : more ≠ [])
      (gaps : Gaps rest others) (fits : ∀ text ∈ others, Fits base text)
        (isTodo : todo = asElement more ++ rest)
      (isElements : elements = (done ++ more) :: others) :
        Reads base maxFrames before state segment todo elements

/-! ### A letter -/

/-- **The scan counts brackets** as they are counted. -/
theorem scan_next {state : ObjectAccumulator} {letter : CodePoint}
    (balanced : 0 ≤ (state.toBrackets.next letter).depth) :
    state.scan letter = .ok { state with toBrackets := state.toBrackets.next letter } := by
  rw [ObjectAccumulator.scan]
  rw [Brackets.next] at balanced ⊢
  split_ifs at balanced ⊢
  all_goals first
    | rfl
    | exact absurd ‹state.depth - 1 < 0› (Int.not_lt.mpr balanced)

section Letter

variable {base : TextAccumulator} {maxFrames : ℕ} {before line behind done more : PyText}
  {state : ObjectAccumulator} {segment : Option ℕ} {frames : List PyText} {letter : CodePoint}

/-- What lies behind the start of the segment, one letter later. -/
theorem drop_concat {start : ℕ} (bounded : start ≤ before.length) :
    (before ++ [letter]).drop start = before.drop start ++ [letter] :=
  List.drop_append_of_le_length bounded

theorem Within.scan (within : Within base maxFrames before state segment done (letter :: more)) :
    state.scan letter = .ok { state with toBrackets := bracketsOf (done ++ [letter]) } ∧
      ((bracketsOf (done ++ [letter])).depth = 0 ↔ more = []) := by
  have isObject : IsObjectText (done ++ [letter] ++ more) := by
    rw [List.append_assoc]
    exact within.isObject
  have ends : (bracketsOf (done ++ [letter])).depth = 0 ∧ more = [] ∨
      0 < (bracketsOf (done ++ [letter])).depth ∧ more ≠ [] := by
    by_cases last : more = []
    · subst last
      rw [List.append_nil] at isObject
      exact .inl ⟨isObject.closed, rfl⟩
    · exact .inr ⟨isObject.isOpen (by simp) last, last⟩
  rw [Json.bracketsOf_concat, ← within.brackets] at ends ⊢
  refine ⟨scan_next ?_, ?_⟩
  · rcases ends with ⟨closed, -⟩ | ⟨isOpen, -⟩ <;> omega
  · rcases ends with ⟨closed, last⟩ | ⟨isOpen, unfinished⟩
    · exact iff_of_true closed last
    · exact iff_of_false (by omega) unfinished

/-- A letter that does not end the element. -/
theorem Within.feedObject (line : PyText) (frames : List PyText) (within : Within base maxFrames before state segment done (letter :: more))
    (unfinished : more ≠ []) : ∃ after, Feeding.feedObject
      ⟨state, frames, segment⟩ line before.length letter =
      .ok ⟨after, frames, segment⟩ ∧
        Within base maxFrames (before ++ [letter]) after segment (done ++ [letter]) more := by
  obtain ⟨scans, ends⟩ := within.scan
  refine ⟨{ state with toBrackets := bracketsOf (done ++ [letter]) }, ?_, within.started,
    within.limit, rfl, ?_, ?_, ?_⟩
  · have goesOn : ¬ (state.started = true ∧ (bracketsOf (done ++ [letter])).depth = 0) :=
      fun both => unfinished (ends.mp both.2)
    rw [Feeding.feedObject, scans]
    exact if_neg goesOn
  · obtain ⟨start, held, isStart, bounded, holds, isDone⟩ := within.segment
    refine ⟨start, held, isStart, ?_, holds, ?_⟩
    · rw [List.length_append]
      omega
    · rw [drop_concat bounded, ← List.append_assoc, isDone]
  · rw [List.append_assoc]
    exact within.isObject
  · rw [List.append_assoc]
    exact within.fits

/-- **The letter that ends the element**: the frame is the text of the element. -/
theorem Within.endObject (isBase : IsBase base)
    (within : Within base maxFrames before state segment done [letter])
    (isLine : line = before ++ letter :: behind) (room : frames.length < maxFrames) :
    Feeding.feedObject ⟨state, frames, segment⟩ line before.length letter = .ok
      ⟨{ state with toBrackets := bracketsOf (done ++ [letter]), text := base, started := false },
        frames ++ [done ++ [letter]], none⟩ := by
  obtain ⟨scans, ends⟩ := within.scan
  obtain ⟨start, held, rfl, bounded, holds, isDone⟩ := within.segment
  have isValue : (line.take (before.length + 1)).drop start ++ [] = before.drop start ++ [letter] := by
    rw [List.append_nil, isLine, ← drop_concat bounded]
    congr 1
    have split : before ++ letter :: behind = before ++ [letter] ++ behind := by simp
    rw [split]
    exact List.take_left' (by rw [List.length_append]; rfl)
  have whole : held ++ (before.drop start ++ [letter]) = done ++ [letter] := by
    rw [← List.append_assoc, isDone]
  have few : held.count 10 < base.maxParts := by
    refine lt_of_le_of_lt ?_ within.fits.lines
    rw [← whole, List.count_append]
    exact Nat.le_add_right _ _
  obtain ⟨total, bytes, -, -, appends⟩ := holds.append isValue few (by rw [whole]; exact within.fits.bytes)
  have closes : state.started = true ∧ (bracketsOf (done ++ [letter])).depth = 0 :=
    ⟨within.started, ends.mpr rfl⟩
  have unfull : ¬ state.maxFramesPerFeed ≤ frames.length := by
    rw [within.limit]
    omega
  have empty : ({ base with parts := [], totalBytes := 0 } : TextAccumulator) = base := by
    obtain ⟨noParts, noBytes⟩ := isBase
    rw [← noBytes, ← noParts]
  have frame : (state.text.parts ++ [before.drop start ++ [letter]]).flatten = done ++ [letter] := by
    rw [List.flatten_append, holds.parts, List.flatten_singleton, whole]
  rw [Feeding.feedObject, scans]
  refine (if_pos closes).trans ?_
  rw [Feeding.endObject]
  refine (if_neg unfull).trans ?_
  show (state.text.appendSlice line start (before.length + 1) []).bind _ = _
  rw [appends]
  show Except.ok _ = Except.ok _
  simp only [TextAccumulator.takeText, frame, empty]

/-- What the first letter of a document's rest is, between two elements. -/
theorem Gaps.cons_cases {place : Place} (gaps : Gaps ((letter, place) :: todo) elements) :
    (place = .gap ∧ isSkipped letter = true ∧ Gaps todo elements) ∨
      ∃ more rest others, letter = 123 ∧ place = .inside ∧ more ≠ [] ∧ todo = asElement more ++ rest ∧
        elements = (123 :: more) :: others ∧ IsObjectText (123 :: more) ∧ Gaps rest others := by
  generalize isText : (letter, place) :: todo = text at gaps
  cases gaps with
  | nil => cases isText
  | skip skipped gaps =>
    cases isText
    exact .inl ⟨rfl, skipped, gaps⟩
  | @element text rest others isObject gaps =>
    rcases text with - | ⟨first, more⟩
    · cases isObject.first
    · have brace : first = 123 := Option.some.inj isObject.first
      subst brace
      rcases more with - | ⟨second, more⟩
      · cases isObject.last
      · cases isText
        exact .inr ⟨second :: more, rest, others, rfl, rfl, List.cons_ne_nil _ _, rfl, rfl, isObject, gaps⟩

/-- What the first letter of an element's rest is. -/
theorem element_cases {place : Place} {todo rest : Marked} (nonempty : more ≠ [])
    (isTodo : (letter, place) :: todo = asElement more ++ rest) :
    (more = [letter] ∧ place = .last ∧ todo = rest) ∨
      ∃ later, more = letter :: later ∧ later ≠ [] ∧ place = .inside ∧ todo = asElement later ++ rest := by
  rcases more with - | ⟨first, more⟩
  · exact absurd rfl nonempty
  rcases more with - | ⟨second, more⟩
  · cases isTodo
    exact .inl ⟨rfl, rfl, rfl⟩
  · cases isTodo
    exact .inr ⟨second :: more, rfl, List.cons_ne_nil _ _, rfl, rfl⟩

theorem Within.begin (before : PyText) {text : PyText} (isBase : IsBase base) (limit : state.maxFramesPerFeed = maxFrames)
    (isText : state.text = base) (isObject : IsObjectText text) (fits : Fits base text) :
    Within base maxFrames before { state with toBrackets := {}, started := true }
      (some before.length) [] text where
  started := rfl
  limit := limit
  brackets := rfl
  segment := ⟨before.length, [], rfl, le_refl _, isText ▸ isBase.holds, List.drop_length⟩
  isObject := isObject
  fits := fits

/-- **One letter**: the accumulator is a letter further in the text, and at the end of an element it has one
frame more. -/
theorem Reads.feedLetter (frames : List PyText) (isBase : IsBase base) {place : Place}
    (reads : Reads base maxFrames before state segment ((letter, place) :: todo) elements)
    (isLine : line = before ++ letter :: behind)
      (room : frames.length + Marked.ends [(letter, place)] ≤ maxFrames) :
    ∃ after elements', Feeding.feedLetter ⟨state, frames, segment⟩ line before.length letter = .ok after ∧
      Reads base maxFrames (before ++ [letter]) after.state after.segmentStart todo elements' ∧
      after.frames ++ elements' = frames ++ elements ∧
      after.frames.length = frames.length + Marked.ends [(letter, place)] ∧
      after.state.started = decide (place = .inside) := by
  cases reads with
  | idle stopped limit text unset gaps fits =>
    rw [Feeding.feedLetter, if_neg (by rw [stopped]; decide)]
    rcases gaps.cons_cases with ⟨rfl, skipped, gaps⟩ |
      ⟨more, rest, others, rfl, rfl, unfinished, rfl, rfl, isObject, gaps⟩
    · rw [if_pos skipped]
      exact ⟨_, elements, rfl, .idle stopped limit text unset gaps fits, rfl, rfl, stopped⟩
    · have begins := Within.begin before isBase limit text isObject (fits _ List.mem_cons_self)
      obtain ⟨after, feeds, within⟩ := begins.feedObject line frames unfinished
      rw [if_neg (by decide), if_neg (by decide)]
      refine ⟨_, _, feeds, .within within (List.cons_ne_nil _ _) unfinished gaps ?_ rfl rfl, rfl,
        rfl, within.started⟩
      exact fun other among => fits other (List.mem_cons_of_mem _ among)
  | within within begun unfinished gaps fits isTodo isElements =>
    subst isElements
    rw [Feeding.feedLetter, if_pos within.started]
    rcases element_cases unfinished isTodo with ⟨rfl, rfl, rfl⟩ | ⟨later, rfl, goesOn, rfl, rfl⟩
    · refine ⟨_, _, within.endObject isBase isLine room, .idle rfl within.limit rfl rfl gaps fits,
        ?_, ?_, rfl⟩
      · rw [List.append_assoc]
        rfl
      · rw [List.length_append]
        rfl
    · obtain ⟨after, feeds, within⟩ := within.feedObject line frames goesOn
      refine ⟨_, _, feeds, .within within (by simp) goesOn gaps fits rfl rfl, ?_, rfl, within.started⟩
      rw [List.append_assoc]
      rfl

end Letter

/-! ### A line -/

/-- Whether a text ends inside an element. -/
def insideAfter (started : Bool) (text : Marked) : Bool :=
  text.foldl (fun _ letter => decide (letter.2 = .inside)) started

theorem Marked.ends_append (first second : Marked) : (first ++ second).ends = first.ends + second.ends :=
  List.countP_append

section Lines

variable {base : TextAccumulator} {maxFrames : ℕ} {state : ObjectAccumulator} {todo : Marked}
  {elements : List PyText}

/-- **The letters of a line.** -/
theorem Reads.feedLetters (isBase : IsBase base) {line : PyText} : (here : Marked) → (frames : List PyText) → {before : PyText} →
    {state : ObjectAccumulator} → {segment : Option ℕ} → {elements : List PyText} →
    Reads base maxFrames before state segment (here ++ todo) elements → line = before ++ here.letters →
    frames.length + here.ends ≤ maxFrames →
    ∃ after elements', Feeding.feedLetters line before.length here.letters ⟨state, frames, segment⟩
      = .ok after ∧
      Reads base maxFrames line after.state after.segmentStart todo elements' ∧
      after.frames ++ elements' = frames ++ elements ∧ after.frames.length = frames.length + here.ends ∧
      after.state.started = insideAfter state.started here
  | [], frames, before, state, segment, elements, reads, isLine, _ => by
    have whole : line = before := isLine.trans (List.append_nil before)
    subst whole
    exact ⟨_, elements, rfl, reads, rfl, rfl, rfl⟩
  | (letter, place) :: here, frames, before, state, segment, elements, reads, isLine, room => by
    have split : Marked.ends ((letter, place) :: here) = Marked.ends [(letter, place)] + Marked.ends here :=
      Marked.ends_append [(letter, place)] here
    rw [split] at room
    obtain ⟨next, others, feeds, reads, kept, count, started⟩ :=
      reads.feedLetter frames isBase isLine (by omega)
    have isLine' : line = before ++ [letter] ++ Marked.letters here := by
      rw [List.append_assoc]
      exact isLine
    obtain ⟨after, elements', feedsMore, readsMore, keptMore, countMore, startedMore⟩ :=
      Reads.feedLetters isBase here next.frames reads isLine' (by omega)
    refine ⟨after, elements', ?_, readsMore, keptMore.trans kept, by omega, ?_⟩
    · rw [List.length_append] at feedsMore
      show (Feeding.feedLetter _ line before.length letter).bind _ = _
      rw [feeds]
      exact feedsMore
    · rw [startedMore, started]
      rfl

/-- **A line ends inside an element**: what was read of the element is kept, and the line feed with it. -/
theorem Within.endLine {line done more : PyText} {segment : Option ℕ} (frames : List PyText)
    (within : Within base maxFrames line state segment done more) (unfinished : more ≠ []) : ∃ text,
    Feeding.endLine ⟨state, frames, segment⟩ line = .ok (frames, { state with text }) ∧
      Holds base text (done ++ [10]) := by
  obtain ⟨start, held, rfl, bounded, holds, isDone⟩ := within.segment
  have isValue : (line.take line.length).drop start ++ [10] = line.drop start ++ [10] := by
    rw [List.take_length]
  have whole : held ++ (line.drop start ++ [10]) = done ++ [10] := by rw [← List.append_assoc, isDone]
  have few : held.count 10 < base.maxParts := by
    refine lt_of_le_of_lt ?_ within.fits.lines
    rw [← isDone, List.append_assoc, List.count_append]
    exact Nat.le_add_right _ _
  have small : ∃ bytes, Utf8.encodePoints (held ++ (line.drop start ++ [10])) = some bytes ∧
      bytes.length ≤ base.limitBytes := by
    obtain ⟨bytes, encodes, small⟩ := within.fits.bytes
    obtain ⟨front, behind, encodesDone, encodesMore, rfl⟩ := Utf8.encodePoints_append encodes
    rw [whole]
    refine ⟨front ++ [10], encodePoints_concat encodesDone rfl, ?_⟩
    have nonempty := encodePoints_pos encodesMore unfinished
    rw [List.length_append] at small ⊢
    exact le_trans (Nat.add_le_add_left nonempty _) small
  obtain ⟨total, bytes, encodes, isTotal, appends⟩ := holds.append isValue few small
  refine ⟨{ base with parts := state.text.parts ++ [line.drop start ++ [10]], totalBytes := total },
    ?_, rfl, ?_, ?_, bytes, ?_, isTotal⟩
  · rw [Feeding.endLine]
    refine (if_pos within.started).trans ?_
    show (state.text.appendSlice line start line.length [10]).bind _ = _
    rw [appends]
    rfl
  · show (state.text.parts ++ [_]).flatten = _
    rw [List.flatten_append, holds.parts, List.flatten_singleton, whole]
  · show (state.text.parts ++ [_]).length ≤ _
    rw [← whole, List.count_append, List.count_append, List.length_append]
    have := holds.lines
    have one : List.count 10 [(10 : CodePoint)] = 1 := rfl
    show state.text.parts.length + 1 ≤ _
    omega
  · rw [← whole]
    exact encodes

/-- **A line feed that cuts the text.** -/
theorem Reads.lineFeed (frames : List PyText) {line : PyText} {segment : Option ℕ} {place : Place}
    (reads : Reads base maxFrames line state segment ((10, place) :: todo) elements) : ∃ after,
    Feeding.endLine ⟨state, frames, segment⟩ line = .ok (frames, after) ∧
      Reads base maxFrames [] after (if after.started then some 0 else none) todo elements ∧
      after.started = decide (place = .inside) ∧ place ≠ .last := by
  cases reads with
  | idle stopped limit text unset gaps fits =>
    rcases gaps.cons_cases with ⟨rfl, -, gaps⟩ | ⟨-, -, -, wrong, -⟩
    · refine ⟨state, if_neg (by rw [stopped]; decide), .idle stopped limit text ?_ gaps fits,
        stopped, Place.noConfusion⟩
      exact if_neg (by rw [stopped]; decide)
    · cases wrong
  | @within done more rest others within begun unfinished gaps fits isTodo isElements =>
    obtain ⟨text, ends, holds⟩ := within.endLine frames unfinished
    refine ⟨_, ends, ?_⟩
    rcases element_cases unfinished isTodo with ⟨rfl, -, -⟩ | ⟨later, rfl, goesOn, rfl, rfl⟩
    · have last := within.isObject.last
      rw [List.getLast?_append] at last
      cases last
    · have next : Within base maxFrames [] { state with text } (if state.started then some 0 else none)
          (done ++ [10]) later := by
        refine ⟨within.started, within.limit, ?_, ?_, ?_, ?_⟩
        · rw [within.isObject.lineBreak begun]
          exact within.brackets
        · exact ⟨0, _, if_pos within.started, le_refl _, holds, List.append_nil _⟩
        · rw [List.append_assoc]
          exact within.isObject
        · rw [List.append_assoc]
          exact within.fits
      refine ⟨.within next (by simp) goesOn gaps fits rfl ?_, within.started, Place.noConfusion⟩
      rw [isElements, List.append_assoc]
      rfl

theorem Reads.endText (frames : List PyText) {line : PyText} {segment : Option ℕ}
    (reads : Reads base maxFrames line state segment todo elements) : ∃ after,
    Feeding.endLine ⟨state, frames, segment⟩ line = .ok (frames, after) ∧ after.started
      = state.started := by
  cases reads with
  | idle stopped limit text unset gaps fits => exact ⟨state, if_neg (by rw [stopped]; decide), rfl⟩
  | within within begun unfinished gaps fits isTodo isElements =>
    obtain ⟨text, ends, -⟩ := within.endLine frames unfinished
    exact ⟨_, ends, rfl⟩

/-- **The lines of a text**: the frames are the elements that end in it. -/
theorem feedLines_reads (isBase : IsBase base) {lines : List Marked} {here : Marked} (cut : Cut lines here)
    {state : ObjectAccumulator}
    (reads : Reads base maxFrames [] state (if state.started then some 0 else none) (here ++ todo) elements)
    (few : ∀ line ∈ lines, line.ends ≤ maxFrames) :
    ∃ frames after others, state.feedLines (lines.map Marked.letters) = .ok (frames, after) ∧
      frames ++ others = elements ∧ frames.length = here.ends ∧ after.started
        = insideAfter state.started here := by
  induction cut generalizing state elements with
  | empty => exact ⟨[], state, elements, rfl, rfl, rfl, rfl⟩
  | last line =>
    obtain ⟨feeding, others, feeds, readsLine, kept, count, started⟩ :=
      reads.feedLetters isBase line [] rfl
      (by rw [List.length_nil, Nat.zero_add]; exact few line List.mem_cons_self)
    obtain ⟨after, ends, same⟩ := readsLine.endText feeding.frames
    refine ⟨feeding.frames ++ [], after, others, ?_, ?_, ?_, same.trans started⟩
    · show (state.feedLine _).bind _ = _
      rw [ObjectAccumulator.feedLine]
      show ((Feeding.feedLetters _ 0 _ _).bind _).bind _ = _
      rw [show Feeding.feedLetters line.letters 0 line.letters _ = _ from feeds]
      show (Feeding.endLine feeding line.letters).bind _ = _
      rw [show Feeding.endLine feeding line.letters = _ from ends]
      rfl
    · rw [List.append_nil]
      exact kept
    · rw [List.append_nil]
      exact count.trans (Nat.zero_add _)
  | more line place cut ih =>
    rename_i lines rest
    rw [List.append_assoc] at reads
    obtain ⟨feeding, others, feeds, readsLine, kept, count, started⟩ :=
      reads.feedLetters isBase line [] rfl
      (by rw [List.length_nil, Nat.zero_add]; exact few line List.mem_cons_self)
    obtain ⟨next, ends, readsNext, same, goesOn⟩ := readsLine.lineFeed feeding.frames
    obtain ⟨frames, after, left, feedsRest, keptRest, countRest, startedRest⟩ :=
      ih readsNext fun other among =>
      few other (List.mem_cons_of_mem _ among)
    refine ⟨feeding.frames ++ frames, after, left, ?_, ?_, ?_, ?_⟩
    · show (state.feedLine _).bind _ = _
      rw [ObjectAccumulator.feedLine]
      show ((Feeding.feedLetters _ 0 _ _).bind _).bind _ = _
      rw [show Feeding.feedLetters line.letters 0 line.letters _ = _ from feeds]
      show ((Feeding.endLine feeding line.letters).bind _) = _
      rw [show Feeding.endLine feeding line.letters = _ from ends]
      show (next.feedLines _).bind _ = _
      rw [feedsRest]
      rfl
    · rw [List.append_assoc, keptRest]
      exact kept
    · rw [List.length_append, count, countRest, Marked.ends_append]
      show 0 + line.ends + Marked.ends rest = line.ends + Marked.ends ((10, place) :: rest)
      have none : Marked.ends ((10, place) :: rest) = Marked.ends rest :=
          List.countP_cons_of_neg (by simpa using goesOn)
      omega
    · rw [startedRest, same, insideAfter, insideAfter, List.foldl_append]
      rfl

end Lines

/-! ### Line endings -/

@[simp] theorem letters_append (first second : Marked) : Marked.letters (first ++ second) =
    Marked.letters first ++ Marked.letters second := List.map_append

@[simp] theorem letters_asGap (text : PyText) : (asGap text).letters = text := by
  rw [Marked.letters, asGap, List.map_map]
  exact List.map_id text

@[simp] theorem letters_asElement : (text : PyText) → (asElement text).letters = text
  | [] => rfl
  | [_] => rfl
  | letter :: second :: rest => congrArg (fun later => letter :: later) (letters_asElement (second :: rest))

/-- One form for all line endings. -/
def unify (text : PyText) : PyText := normalizeLines 13 10 text

def Item.unified (item : Item) : Item where
  before := unify item.before
  text := unify item.text
  behind := unify item.behind
  isObject := item.isObject.normalize
  spaceBefore := Json.normalizeLines_spaces item.before item.spaceBefore
  spaceBehind := Json.normalizeLines_spaces item.behind item.spaceBehind

/-- A letter that is no line ending separates what stands on both sides. -/
theorem unify_letter {letter : CodePoint} (front behind : PyText) (noCr : letter ≠ 13)
    (noLf : letter ≠ 10) :
    unify (front ++ letter :: behind) = unify front ++ letter :: unify behind := by
  have alone : unify (letter :: behind) = letter :: unify behind := by
    rw [unify, Json.normalizeLines_cons, if_neg noCr]
    rfl
  rw [← alone]
  exact Json.normalizeLines_append _ front (.inr fun same => noLf (Option.some.inj same))

theorem Item.letters_unified (item : Item) : item.unified.marked.letters = unify item.marked.letters := by
  have behind : unify (item.text ++ item.behind) = unify item.text ++ unify item.behind :=
    Json.normalizeLines_append _ _ (.inl (by rw [item.isObject.last]; decide))
  have before : unify (item.before ++ (item.text ++ item.behind)) = unify item.before ++ unify
      (item.text ++ item.behind) := by
    refine Json.normalizeLines_append _ _ (.inr ?_)
    rw [List.head?_append, item.isObject.first]
    exact fun same => absurd (Option.some.inj same) (by decide)
  simp only [Item.marked, Item.unified, letters_append, letters_asGap, letters_asElement, List.append_assoc]
  rw [before, behind]

theorem joined_unified : (items : List Item) →
    (joined (items.map Item.unified)).letters = unify (joined items).letters
  | [] => rfl
  | [item] => by
    have one (item : Item) : joined [item] = item.marked := List.append_nil _
    rw [List.map_cons, List.map_nil, one, one]
    exact item.letters_unified
  | item :: second :: rest => by
    have later := joined_unified (second :: rest)
    rw [List.map_cons] at later
    rw [List.map_cons, List.map_cons, joined_cons, joined_cons, letters_append, letters_append,
      item.letters_unified]
    show _ ++ 44 :: (joined _).letters = unify (_ ++ 44 :: (joined _).letters)
    rw [unify_letter _ _ (by decide) (by decide), later]

/-- **A document with one form for all line endings** is a document. -/
theorem IsDocument.unified (isDocument : IsDocument text elements) :
    ∃ other, Marked.letters other = unify text.letters ∧ IsDocument other (elements.map unify) := by
  have spaces {text : PyText} (all : text.all Json.isSpace = true) : (unify text).all Json.isSpace = true :=
    Json.normalizeLines_spaces text all
  cases isDocument with
  | @array lead trail first rest leadSpace trailSpace =>
    have elements : ((first :: rest).map Item.text).map unify =
        ((first :: rest).map Item.unified).map Item.text := by
      rw [List.map_map, List.map_map]
      rfl
    rw [elements]
    refine ⟨_, ?_, .array first.unified (rest.map Item.unified) (spaces leadSpace) (spaces trailSpace)⟩
    have items := joined_unified (first :: rest)
    rw [List.map_cons] at items
    simp only [letters_append, letters_asGap, items]
    rw [List.append_assoc, List.append_assoc]
    show unify lead ++ 91 :: (unify _ ++ 93 :: unify trail) = unify (lead ++ 91 :: (_ ++ 93 :: trail))
    rw [unify_letter lead _ (by decide) (by decide), unify_letter _ trail (by decide) (by decide)]
  | @empty lead inner trail leadSpace innerSpace trailSpace =>
    refine ⟨_, ?_, .empty (spaces leadSpace) (spaces innerSpace) (spaces trailSpace)⟩
    rw [letters_asGap, letters_asGap, unify_letter lead _ (by decide) (by decide),
      unify_letter inner _ (by decide) (by decide)]
  | object item => exact ⟨_, item.letters_unified, .object item.unified⟩

/-! ### The frames are the elements -/

theorem ends_asElement : (text : PyText) → text ≠ [] → (asElement text).ends = 1
  | [], nonempty => absurd rfl nonempty
  | [_], _ => rfl
  | letter :: second :: rest, _ => by
    have later := ends_asElement (second :: rest) (List.cons_ne_nil _ _)
    exact (List.countP_cons_of_neg (by simp)).trans later

theorem insideAfter_asElement : (text : PyText) → text ≠ [] → (started : Bool) →
    insideAfter started (asElement text) = false
  | [], nonempty, _ => absurd rfl nonempty
  | [_], _, _ => rfl
  | _ :: second :: rest, _, _ => insideAfter_asElement (second :: rest) (List.cons_ne_nil _ _) true

/-- A whole document ends as often as it has elements, and not inside of one. -/
theorem Gaps.whole (gaps : Gaps text elements) :
    text.ends = elements.length ∧ insideAfter false text = false := by
  induction gaps with
  | nil => exact ⟨rfl, rfl⟩
  | skip skipped gaps ih => exact ⟨(List.countP_cons_of_neg (by simp)).trans ih.1, ih.2⟩
  | @element text todo elements isObject gaps ih =>
    have nonempty : text ≠ [] := by
      rintro rfl
      cases isObject.first
    constructor
    · rw [Marked.ends_append, ends_asElement text nonempty, ih.1, List.length_cons, Nat.add_comm]
    · rw [insideAfter, List.foldl_append]
      show insideAfter (insideAfter false (asElement text)) todo = false
      rw [insideAfter_asElement text nonempty]
      exact ih.2

/-- A text is read from its beginning. -/
theorem new_reads {label : String} {limitBytes maxFrames : ℕ} {accumulator : ObjectAccumulator}
    (isNew : ObjectAccumulator.new label limitBytes maxFrames = .ok accumulator)
    (isDocument : IsDocument text elements) (fits : ∀ element ∈ elements, Fits accumulator.text element) :
    IsBase accumulator.text ∧ accumulator.started = false ∧
      Reads accumulator.text maxFrames [] accumulator
        (if accumulator.started then some 0 else none) text elements := by
  rw [ObjectAccumulator.new] at isNew
  split_ifs at isNew
  cases isNew
  exact ⟨⟨rfl, rfl⟩, rfl, .idle rfl rfl rfl rfl isDocument.gaps fits⟩

/-- The frames of a whole document. -/
theorem whole_framed {label : String} {limitBytes maxFrames : ℕ} {accumulator : ObjectAccumulator}
    (isNew : ObjectAccumulator.new label limitBytes maxFrames = .ok accumulator)
    (isDocument : IsDocument text elements) (fits : ∀ element ∈ elements, Fits accumulator.text element)
    {lines : List Marked} (cut : Cut lines text) (few : ∀ line ∈ lines, line.ends ≤ maxFrames) :
    ∃ after, accumulator.feedLines (lines.map Marked.letters) = .ok (elements, after)
      ∧ after.finish = .ok () := by
  obtain ⟨isBase, idle, reads⟩ := new_reads isNew isDocument fits
  rw [← List.append_nil text] at reads
  obtain ⟨frames, after, others, feeds, kept, count, started⟩ := feedLines_reads isBase cut reads few
  obtain ⟨ends, outside⟩ := isDocument.gaps.whole
  have none : others = [] := by
    rw [← kept, List.length_append] at ends
    exact List.eq_nil_of_length_eq_zero (by omega)
  rw [none, List.append_nil] at kept
  rw [idle, outside] at started
  exact ⟨after, kept ▸ feeds, if_neg (by rw [started]; decide)⟩

/-- **The frames are the elements of the array**, in order: of every document and every cut into lines, also with
one form for all line endings. A document that breaks off inside an element gives the elements before it, and
`finish` raises. -/
theorem document_framed {label : String} {limitBytes maxFrames : ℕ}
    {accumulator : ObjectAccumulator} {text : Marked}
    {elements : List PyText} (isNew : ObjectAccumulator.new label limitBytes maxFrames = .ok accumulator)
    (isDocument : IsDocument text elements) (fits : ∀ element ∈ elements, Fits accumulator.text element) :
    (∀ lines, Cut lines text → (∀ line ∈ lines, line.ends ≤ maxFrames) →
      ∃ after, accumulator.feedLines (lines.map Marked.letters) = .ok (elements, after)
        ∧ after.finish = .ok ()) ∧
    (∃ unified, Marked.letters unified = unify text.letters ∧
      ∀ lines, Cut lines unified → (∀ line ∈ lines, line.ends ≤ maxFrames) →
        (∀ element ∈ elements, Fits accumulator.text (unify element)) → ∃ after,
          accumulator.feedLines (lines.map Marked.letters) = .ok (elements.map unify, after)
            ∧ after.finish = .ok ()) ∧
    ∀ lines start letter, start ++ [(letter, .inside)] <+: text → Cut lines (start ++ [(letter, .inside)]) →
      (∀ line ∈ lines, line.ends ≤ maxFrames) → ∃ after,
        accumulator.feedLines (lines.map Marked.letters) = .ok (elements.take (Marked.ends start), after) ∧
          after.finish = .error (.protocol "Gemini JSON stream ended with an incomplete object") := by
  refine ⟨fun lines cut few => whole_framed isNew isDocument fits cut few, ?_, ?_⟩
  · obtain ⟨unified, letters, isUnified⟩ := isDocument.unified
    refine ⟨unified, letters, fun lines cut few fits => ?_⟩
    exact whole_framed isNew isUnified (List.forall_mem_map.mpr fits) cut few
  · rintro lines start letter ⟨rest, rfl⟩ cut few
    obtain ⟨isBase, idle, reads⟩ := new_reads isNew isDocument fits
    obtain ⟨frames, after, others, feeds, kept, count, started⟩ := feedLines_reads isBase cut reads few
    have ends : Marked.ends (start ++ [(letter, .inside)]) = Marked.ends start := by
      rw [Marked.ends_append]
      rfl
    have taken : elements.take (Marked.ends start) = frames := by
      rw [← kept]
      exact List.take_left' (count.trans ends)
    have inside : after.started = true := by
      rw [started, insideAfter, List.foldl_append]
      rfl
    exact ⟨after, taken ▸ feeds, if_pos inside⟩

/-- An array of two objects, with a line feed in the second one. -/
theorem document_framed_two : ∃ after,
    ObjectAccumulator.feedLines { text := { label := "", limitBytes := 100 }, maxFramesPerFeed := 1 }
        [Utf8.points "[ \x7b\"a\":1\x7d,\x7b", Utf8.points "\x7d]"] =
      .ok ([Utf8.points "\x7b\"a\":1\x7d", Utf8.points "\x7b\n\x7d"], after) ∧ after.finish = .ok () := by
  have isObject (text : String) (decodes : ∃ members, Json.decode false (Utf8.points text) = some
      (.object members))
      (first : (Utf8.points text).head? = some 123) (last : (Utf8.points text).getLast? = some 125) :
      IsObjectText (Utf8.points text) := ⟨decodes, first, last⟩
  let first : Item := ⟨[32], _, [], isObject "\x7b\"a\":1\x7d" ⟨_, rfl⟩ rfl rfl, rfl, rfl⟩
  let second : Item := ⟨[], _, [], isObject "\x7b\n\x7d" ⟨_, rfl⟩ rfl rfl, rfl, rfl⟩
  have isDocument := @IsDocument.array [] [] first [second] rfl rfl
  have framed := (@document_framed "" 100 1 _ _ _ rfl isDocument ?_).1
  · have cut := Cut.more (asGap [91, 32] ++ asElement (Utf8.points "\x7b\"a\":1\x7d") ++
      [(44, .gap), (123, .inside)])
      .inside (.last [(125, .last), (93, .gap)])
    exact framed _ cut (by decide)
  · intro element among
    rcases List.mem_cons.mp among with rfl | among
    · have few : (Utf8.points "\x7b\"a\":1\x7d").count 10 < 4096 := by decide
      exact ⟨⟨_, rfl, by decide⟩, few⟩
    · obtain rfl := List.mem_singleton.mp among
      have few : (Utf8.points "\x7b\n\x7d").count 10 < 4096 := by decide
      exact ⟨⟨_, rfl, by decide⟩, few⟩

end UniApi.Providers.GeminiFraming
