/-
**`_extract_sse_event_fields`: the fields of an SSE event in Python.**

The lines of an event are read one by one, at most 4096 of them. `extractSseEventFields_eq` says that
what comes out is what the lines say.
-/

import UniApi.Lib.EventCoding
import UniApi.Streaming.SseParser

namespace UniApi.Streaming

open UniApi.Lib

/-- `DEFAULT_MAX_FIELDS_PER_EVENT`. -/
def defaultMaxFieldsPerEvent : Nat := 4096

/-- What `_extract_sse_event_fields` returns. -/
structure SseEventFields where
  eventName : PyStr
  data : PyStr
  hasEventField : Bool
  hasDataField : Bool
  deriving DecidableEq

/-- What the loop of `_extract_sse_event_fields` has found. -/
structure FieldScan where
  eventName : PyStr
  dataLines : List PyStr
  hasEventField : Bool
  hasDataField : Bool

/-- The body of the loop: `line.split(":", 1)`, one space off the value, and the two fields. -/
def FieldScan.step (scan : FieldScan) (line : PyStr) : FieldScan :=
  let (field, value) := fieldOf pointSigns line
  if field = Utf8.points "event" then { scan with hasEventField := true, eventName := value }
  else if field = Utf8.points "data" then
    { scan with hasDataField := true, dataLines := scan.dataLines ++ [value] }
  else scan

/-- The loop, over the lines `_iter_bounded_event_lines` yields. -/
def scanFields (observed : Nat) (scan : FieldScan) : List PyStr → Except StreamError FieldScan
  | [] => .ok scan
  | line :: rest =>
    if observed + 1 > defaultMaxFieldsPerEvent then
      .error (.outputLimit "fields per event" defaultMaxFieldsPerEvent (observed + 1))
    else scanFields (observed + 1) (scan.step line) rest

/-- `_extract_sse_event_fields`. -/
def extractSseEventFields (rawEvent : PyStr) : Except StreamError SseEventFields := do
  let scan ← scanFields 0 ⟨[], [], false, false⟩ (rawEvent.splitOn lfPoint)
  return ⟨scan.eventName, [lfPoint].intercalate scan.dataLines, scan.hasEventField, scan.hasDataField⟩

/-- The scan that a reading stands for. -/
def FieldScan.ofReading (reading : Reading CodePoint) : FieldScan :=
  ⟨reading.event.getD [], reading.data, reading.event.isSome, !reading.data.isEmpty⟩

theorem FieldScan.step_ofReading (reading : Reading CodePoint) (line : PyStr) :
    (FieldScan.ofReading reading).step line = .ofReading (reading.take pointSigns line) := by
  unfold FieldScan.step Reading.take
  have eventField : pointSigns.eventField = Utf8.points "event" := rfl
  have dataField : pointSigns.dataField = Utf8.points "data" := rfl
  rw [eventField, dataField]
  dsimp only
  split
  · rfl
  split
  · simp [ofReading]
  · rfl

/-- The loop reads the lines, unless they are too many. -/
theorem scanFields_eq (observed : Nat) (reading : Reading CodePoint) (lines : List PyStr)
    (within : observed ≤ defaultMaxFieldsPerEvent) :
    scanFields observed (.ofReading reading) lines =
      if observed + lines.length ≤ defaultMaxFieldsPerEvent then
        .ok (.ofReading (lines.foldl (Reading.take pointSigns) reading))
      else .error (.outputLimit "fields per event" defaultMaxFieldsPerEvent
        (defaultMaxFieldsPerEvent + 1)) := by
  induction lines generalizing observed reading with
  | nil => simp [scanFields, within]
  | cons line rest ih =>
    rw [scanFields, List.length_cons]
    by_cases full : observed + 1 > defaultMaxFieldsPerEvent
    · have last : observed = defaultMaxFieldsPerEvent := by omega
      rw [if_pos full, if_neg (by omega), last]
    · rw [if_neg full, FieldScan.step_ofReading, ih _ _ (by omega), List.foldl_cons]
      simp only [Nat.add_assoc, Nat.add_comm 1]

/-- **The fields of an event are what its lines say**, if they are not too many. -/
theorem extractSseEventFields_eq (rawEvent : PyStr) :
    extractSseEventFields rawEvent =
      if (rawEvent.splitOn lfPoint).length ≤ defaultMaxFieldsPerEvent then
        let reading := read pointSigns (rawEvent.splitOn lfPoint)
        .ok ⟨reading.event.getD [], [lfPoint].intercalate reading.data, reading.event.isSome,
          !reading.data.isEmpty⟩
      else .error (.outputLimit "fields per event" defaultMaxFieldsPerEvent
        (defaultMaxFieldsPerEvent + 1)) := by
  have scanned := scanFields_eq 0 Reading.empty (rawEvent.splitOn lfPoint) (Nat.zero_le _)
  have start : FieldScan.ofReading Reading.empty = ⟨[], [], false, false⟩ := rfl
  rw [start, Nat.zero_add] at scanned
  unfold extractSseEventFields
  rw [scanned]
  split <;> rfl

end UniApi.Streaming
