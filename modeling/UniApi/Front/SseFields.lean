/-
**`parse_sse_frame`: the fields of an SSE frame in Rust.**

A frame is decoded as UTF-8, its line endings are turned into LF, and its lines are read one by one.
`parseSseFrame_eq` says that what comes out is what the lines say.
-/

import UniApi.Front.SseDecoder
import UniApi.Lib.EventCoding

namespace UniApi.Front

open UniApi.Lib

structure ParsedSseFrame where
  raw : Bytes
  declaredEvent : Option Bytes
  data : Option Bytes
  commentOnly : Bool
  deriving DecidableEq

/-- What the loop of `parse_sse_frame` has found. -/
structure FrameScan where
  declaredEvent : Option Bytes
  dataLines : List Bytes
  sawField : Bool
  sawComment : Bool

/-- The body of the loop: comments and blank lines are skipped. -/
def FrameScan.step (scan : FrameScan) (line : Bytes) : FrameScan :=
  if line.head? = some 58 then { scan with sawComment := true }
  else if line = [] then scan
  else
    let (field, value) := fieldOf byteSigns line
    let scan := { scan with sawField := true }
    if field = Utf8.lit "event" then { scan with declaredEvent := some value }
    else if field = Utf8.lit "data" then { scan with dataLines := scan.dataLines ++ [value] }
    else scan

/-- `text.replace("\r\n", "\n").replace('\r', "\n")`, if there is a CR at all. -/
def normalizedText (text : Bytes) : Bytes :=
  if text.contains cr then normalizeLines cr lf text else text

/-- `parse_sse_frame`. -/
def parseSseFrame (frame : SseFrame) : Except ProtocolError ParsedSseFrame :=
  match Utf8.decodeAll frame.raw with
  | none => .error (.text "Responses upstream SSE event is not valid UTF-8")
  | some _ =>
    let normalized := normalizedText frame.raw
    let scan := (normalized.splitOn lf).foldl FrameScan.step ⟨none, [], false, false⟩
    .ok {
      raw := normalized
      declaredEvent := scan.declaredEvent
      data := if scan.dataLines.isEmpty then none else some ([lf].intercalate scan.dataLines)
      commentOnly := scan.sawComment && !scan.sawField }

theorem normalizedText_eq (text : Bytes) : normalizedText text = normalizeLines cr lf text := by
  unfold normalizedText
  split
  · rfl
  · rename_i plain
    have absent : cr ∉ text := by simpa using plain
    rw [← newlines_run (by decide), newlines_run_plain text absent]

/-- What the loop has read. -/
def FrameScan.reading (scan : FrameScan) : Reading UInt8 := ⟨scan.declaredEvent, scan.dataLines⟩

/-- A comment. -/
def isComment (line : Bytes) : Bool := line.head? = some 58

/-- A line with a field. -/
def isField (line : Bytes) : Bool := !isComment line && !line.isEmpty

theorem FrameScan.step_eq (scan : FrameScan) (line : Bytes) :
    (scan.step line).reading = scan.reading.take byteSigns line ∧
      (scan.step line).sawField = (scan.sawField || isField line) ∧
      (scan.step line).sawComment = (scan.sawComment || isComment line) := by
  unfold step
  split
  · rename_i comment
    obtain ⟨text, rfl⟩ := List.head?_eq_some_iff.mp comment
    exact ⟨(take_comment byteSigns _ text).symm, by simp [isField, isComment], by simp [isComment]⟩
  split
  · rename_i blank
    subst blank
    exact ⟨(take_blank byteSigns _).symm, by simp [isField], by simp [isComment]⟩
  · rename_i field nonblank
    have eventField : byteSigns.eventField = Utf8.lit "event" := rfl
    have dataField : byteSigns.dataField = Utf8.lit "data" := rfl
    have named : isField line = true := by simp [isField, isComment, field, nonblank]
    have plain : isComment line = false := by simp [isComment, field]
    unfold Reading.take
    rw [eventField, dataField, named, plain]
    dsimp only
    split
    · exact ⟨rfl, by simp, by simp⟩
    split
    · exact ⟨rfl, by simp, by simp⟩
    · exact ⟨rfl, by simp, by simp⟩

/-- **The loop reads the lines.** -/
theorem foldl_step_eq (lines : List Bytes) (scan : FrameScan) :
    (lines.foldl FrameScan.step scan).reading = lines.foldl (Reading.take byteSigns) scan.reading ∧
      (lines.foldl FrameScan.step scan).sawField = (scan.sawField || lines.any isField) ∧
      (lines.foldl FrameScan.step scan).sawComment = (scan.sawComment || lines.any isComment) := by
  induction lines generalizing scan with
  | nil => simp
  | cons line rest ih =>
    obtain ⟨reading, field, comment⟩ := scan.step_eq line
    obtain ⟨readings, fields, comments⟩ := ih (scan.step line)
    rw [reading] at readings
    rw [field] at fields
    rw [comment] at comments
    refine ⟨readings, ?_, ?_⟩
    · rw [List.foldl_cons, fields, List.any_cons, Bool.or_assoc]
    · rw [List.foldl_cons, comments, List.any_cons, Bool.or_assoc]

/-- What a frame says. -/
def frameReading (raw : Bytes) : Reading UInt8 := read byteSigns (rawLines byteSigns raw)

/-- **The fields of a frame are what its lines say.** -/
theorem parseSseFrame_eq {frame : SseFrame} (valid : Utf8.decodeAll frame.raw ≠ none) :
    parseSseFrame frame = .ok {
      raw := normalizeLines cr lf frame.raw
      declaredEvent := (frameReading frame.raw).event
      data := if (frameReading frame.raw).data.isEmpty then none
        else some ([lf].intercalate (frameReading frame.raw).data)
      commentOnly := (rawLines byteSigns frame.raw).any isComment &&
        !(rawLines byteSigns frame.raw).any isField } := by
  obtain ⟨text, decoded⟩ := Option.ne_none_iff_exists'.mp valid
  obtain ⟨reading, fields, comments⟩ :=
    foldl_step_eq (rawLines byteSigns frame.raw) ⟨none, [], false, false⟩
  have lines : (normalizeLines cr lf frame.raw).splitOn lf = rawLines byteSigns frame.raw := rfl
  have event : _ = (frameReading frame.raw).event := congrArg Reading.event reading
  have data : _ = (frameReading frame.raw).data := congrArg Reading.data reading
  unfold parseSseFrame
  rw [decoded]
  simp only [normalizedText_eq, lines, fields, comments, Bool.false_or]
  rw [← event, ← data]
  rfl

theorem foldl_step_dataLines (lines : List Bytes) (scan : FrameScan)
    (before : scan.sawField = false → scan.dataLines = []) :
    (lines.foldl FrameScan.step scan).sawField = false →
      (lines.foldl FrameScan.step scan).dataLines = [] := by
  induction lines generalizing scan with
  | nil => exact before
  | cons line rest ih =>
    refine ih (scan.step line) fun noField => ?_
    unfold FrameScan.step at noField ⊢
    dsimp only at noField ⊢
    split_ifs at noField ⊢
    · exact before noField
    · exact before noField

theorem not_commentOnly_of_data {frame : SseFrame} {parsed : ParsedSseFrame} {data : Bytes}
    (parses : parseSseFrame frame = .ok parsed) (carries : parsed.data = some data) :
    parsed.commentOnly = false := by
  unfold parseSseFrame at parses
  split at parses
  · cases parses
  cases parses
  have noData := foldl_step_dataLines ((normalizedText frame.raw).splitOn lf) ⟨none, [], false, false⟩
    fun _ => rfl
  dsimp only at carries ⊢
  cases sawField : (((normalizedText frame.raw).splitOn lf).foldl FrameScan.step
      ⟨none, [], false, false⟩).sawField with
  | true => simp
  | false =>
    rw [noData sawField] at carries
    cases carries

end UniApi.Front
