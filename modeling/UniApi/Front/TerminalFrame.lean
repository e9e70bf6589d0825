/-
**`inspect_terminal_frame`: looking for the end of a relayed stream.**

In raw mode a frame is parsed only if its first event line or one of four byte needles suggests that it
ends the stream. The guarded mode processes every frame.

* `inspect_candidate`: what the inspection finds in a candidate is what the processor finds;
* `terminalOf_isSome`: a payload of one of the four types always ends the stream;
* `terminals_agree_iff`: both find the same end of a frame exactly if every frame that is processed to
  one of the four types is a candidate.
-/

import UniApi.Front.Processor

namespace UniApi.Front

open UniApi.Lib

/-! ### Byte searches -/

/-- `raw.split(|byte| matches!(*byte, b'\r' | b'\n'))`. -/
def splitLines (raw : Bytes) : List Bytes := raw.splitOnP fun byte => byte == cr || byte == lf

/-- `declared_event_bytes`: what the first event line names. -/
def declaredEventBytes (raw : Bytes) : Option Bytes :=
  (splitLines raw).findSome? fun line =>
    (stripPrefix (Utf8.lit "event:") line).map fun value => (stripPrefix [32] value).getD value

/-- The needles of `terminal_candidate`. -/
def terminalNeedles : List Bytes :=
  [Utf8.lit "response.completed", Utf8.lit "response.failed", Utf8.lit "response.incomplete",
    Utf8.lit "\"type\":\"error\""]

/-- `terminal_candidate`. -/
def terminalCandidate (frame : SseFrame) : Bool :=
  (declaredEventBytes frame.raw).any isTerminalEventType ||
    terminalNeedles.any (containsBytes frame.raw)

/-! ### The inspection -/

/-- `observe_light_frame`. -/
def observeLightFrame (frame : SseFrame) (stats : StreamStats) : StreamStats :=
  let stats := stats.countEvent
  if (declaredEventBytes frame.raw).any (endsWith · ".delta") then
    { stats with deltaEvents := saturatingSucc stats.deltaEvents }
  else stats

/-- The end of the stream that `inspect_terminal_frame` reports for a payload of a terminal type. -/
def inspectedTerminal (eventType : Bytes) (payload : Value) : Option Terminal :=
  if semanticFailure eventType payload then some (.semanticFailure eventType payload)
  else if eventType = Utf8.lit "response.completed" then some .completed
  else if eventType = Utf8.lit "response.incomplete" then some .incomplete
  else none

/-- `inspect_terminal_frame`. -/
def inspectTerminalFrame (serde : Serde) (frame : SseFrame) :
    Raise ProtocolError StreamStats (Option Terminal) := do
  Raise.modify (observeLightFrame frame)
  if !terminalCandidate frame then return none
  else do
    let parsed ← Raise.ofExcept (parseSseFrame frame)
    match parsed.data with
    | none => return none
    | some data => do
      let (payload, eventType) ← Raise.ofExcept (readPayload serde "terminal" data)
      if !isTerminalEventType eventType then return none
      else do
        Raise.ofExcept (checkDeclared parsed.declaredEvent eventType)
        Raise.ofExcept (validateTerminal eventType payload)
        Raise.modify (StreamStats.takeUsage payload)
        return inspectedTerminal eventType payload

/-! ### What is compared -/

/-- The type of the payload of a frame, if its data is JSON with one. -/
def payloadType (serde : Serde) (frame : SseFrame) : Option Bytes := do
  let parsed ← (parseSseFrame frame).toOption
  let data ← parsed.data
  let payload ← serde.fromStr data
  payload.getStr (Utf8.lit "type")

/-- **The inspection agrees with the processor on a frame**: if the frame is processed and its payload
is of a terminal type, both report the same end and leave the same usage; and if the payload is of no
terminal type, the inspection reports no end. -/
structure TerminalsAgree (serde : Serde) (policy : CommitPolicy) (frame : SseFrame)
    (stats : StreamStats) : Prop where
  complete : ∀ eventType processed after, payloadType serde frame = some eventType →
    isTerminalEventType eventType = true →
    ResponsesProcessor.process serde frame ⟨⟨policy, none⟩, stats⟩ = (.ok processed, after) →
    ∃ inspected, inspectTerminalFrame serde frame stats = (.ok processed.terminal, inspected) ∧
      inspected.usage = after.stats.usage
  sound : (∀ eventType, payloadType serde frame = some eventType →
      isTerminalEventType eventType = false) →
    ∀ terminal inspected, inspectTerminalFrame serde frame stats ≠ (.ok (some terminal), inspected)

/-! ### Payloads that end a stream -/

theorem inspectedTerminal_eq : inspectedTerminal = terminalOf := rfl

/-- **A payload of a terminal type ends the stream.** -/
theorem terminalOf_isSome {eventType : Bytes} (terminal : isTerminalEventType eventType = true)
    (payload : Value) : (terminalOf eventType payload).isSome = true := by
  unfold terminalOf
  by_cases fails : semanticFailure eventType payload = true
  · rw [if_pos fails]
    rfl
  · rw [if_neg fails]
    simp only [isTerminalEventType, terminalEventTypes, List.contains_eq_mem, List.mem_cons,
      List.not_mem_nil, or_false, decide_eq_true_eq] at terminal
    rcases terminal with rfl | rfl | rfl | rfl
    · exact absurd rfl fails
    · rw [if_pos rfl]
      rfl
    · exact absurd rfl fails
    · rw [if_neg (by decide), if_pos rfl]
      rfl

/-- What is read from data does not depend on how errors call it. -/
theorem readPayload_ok_iff {serde : Serde} {noun : String} {data : Bytes} {payload : Value}
    {eventType : Bytes} :
    readPayload serde noun data = .ok (payload, eventType) ↔
      trim data ≠ Utf8.points "[DONE]" ∧ serde.fromStr data = some payload ∧
        payload.getStr (Utf8.lit "type") = some eventType := by
  unfold readPayload
  by_cases done : trim data = Utf8.points "[DONE]"
  · simp [done]
  · rw [if_neg done]
    cases decoded : serde.fromStr data with
    | none => simp
    | some value =>
      dsimp only
      cases typed : value.getStr (Utf8.lit "type") with
      | none =>
        refine ⟨fun impossible => (nomatch impossible), ?_⟩
        rintro ⟨-, same, isType⟩
        rw [← Option.some.inj same, typed] at isType
        cases isType
      | some found =>
        constructor
        · intro same
          cases same
          exact ⟨done, rfl, typed⟩
        · rintro ⟨-, same, isType⟩
          cases same
          rw [typed] at isType
          rw [Option.some.inj isType]

section Agreement

variable {serde : Serde} {frame : SseFrame} {parsed : ParsedSseFrame} {payload : Value}
  {eventType : Bytes}

/-- The type of an event that passed its checks is the payload type. -/
theorem payloadType_of_readFrame
    (reads : readFrame serde frame = .ok (.event parsed payload eventType)) :
    payloadType serde frame = some eventType := by
  obtain ⟨parses, data, carries, payloadRead, -⟩ := readFrame_event.mp reads
  obtain ⟨-, decoded, typed⟩ := readPayload_ok_iff.mp payloadRead
  simp [payloadType, parses, Except.toOption, carries, decoded, typed]

/-- **What is processed with a payload type** is an event that passed its checks. -/
theorem readFrame_of_process {policy : CommitPolicy} {stats : StreamStats} {processed : ProcessedEvent}
    {after : Processing} (typed : payloadType serde frame = some eventType)
    (processes : ResponsesProcessor.process serde frame ⟨⟨policy, none⟩, stats⟩ = (.ok processed, after)) :
    ∃ parsed payload, readFrame serde frame = .ok (.event parsed payload eventType) := by
  obtain ⟨parsed, isParsed, ofData⟩ := Option.bind_eq_some_iff.mp typed
  obtain ⟨data, carries, ofPayload⟩ := Option.bind_eq_some_iff.mp ofData
  have parses : parseSseFrame frame = .ok parsed := by
    cases found : parseSseFrame frame with
    | error error => simp [found, Except.toOption] at isParsed
    | ok other => simpa [found, Except.toOption] using isParsed
  cases reads : readFrame serde frame with
  | error error =>
    rw [ResponsesProcessor.process_eq, reads] at processes
    cases processes
  | ok content =>
    have isEvent : ∃ payload eventType, content = .event parsed payload eventType := by
      unfold readFrame at reads
      simp only [bind, Except.bind, parses, carries, not_commentOnly_of_data parses carries,
        Bool.false_eq_true, if_false] at reads
      split at reads
      · cases reads
      split at reads
      · cases reads
      split at reads
      · cases reads
      split at reads
      · cases reads
      exact ⟨_, _, (Except.ok.inj reads).symm⟩
    obtain ⟨payload', eventType', rfl⟩ := isEvent
    have sameType := payloadType_of_readFrame reads
    rw [typed] at sameType
    cases sameType
    exact ⟨parsed, payload', rfl⟩

/-- **The inspection of a candidate.** -/
theorem inspect_candidate (candidate : terminalCandidate frame = true) (stats : StreamStats)
    (reads : readFrame serde frame = .ok (.event parsed payload eventType))
    (terminal : isTerminalEventType eventType = true) :
    inspectTerminalFrame serde frame stats =
      (.ok (terminalOf eventType payload), (observeLightFrame frame stats).takeUsage payload) := by
  obtain ⟨parses, data, carries, payloadRead, -, declared, valid⟩ := readFrame_event.mp reads
  have terminalRead : readPayload serde "terminal" data = .ok (payload, eventType) :=
    readPayload_ok_iff.mpr (readPayload_ok_iff.mp payloadRead)
  simp [inspectTerminalFrame, Raise.bind_apply, candidate, parses, carries, terminalRead, terminal,
    declared, valid, inspectedTerminal_eq]

theorem inspect_other (other : terminalCandidate frame = false) (stats : StreamStats) :
    inspectTerminalFrame serde frame stats = (.ok none, observeLightFrame frame stats) := by
  simp [inspectTerminalFrame, Raise.bind_apply, other]

/-- **An end is reported for terminal types only.** -/
theorem inspect_sound {stats inspected : StreamStats} {terminal : Terminal}
    (reports : inspectTerminalFrame serde frame stats = (.ok (some terminal), inspected)) :
    ∃ eventType, payloadType serde frame = some eventType ∧ isTerminalEventType eventType = true := by
  cases candidate : terminalCandidate frame with
  | false =>
    rw [inspect_other candidate] at reports
    cases reports
  | true =>
    cases parses : parseSseFrame frame with
    | error error =>
      simp [inspectTerminalFrame, Raise.bind_apply, candidate, parses] at reports
    | ok parsed =>
      cases carries : parsed.data with
      | none => simp [inspectTerminalFrame, Raise.bind_apply, candidate, parses, carries] at reports
      | some data =>
        cases payloadRead : readPayload serde "terminal" data with
        | error error =>
          simp [inspectTerminalFrame, Raise.bind_apply, candidate, parses, carries,
            payloadRead] at reports
        | ok values =>
          obtain ⟨-, decoded, typed⟩ := readPayload_ok_iff.mp payloadRead
          refine ⟨values.2, by simp [payloadType, parses, Except.toOption, carries, decoded, typed], ?_⟩
          cases isTerminal : isTerminalEventType values.2 with
          | true => rfl
          | false =>
            simp [inspectTerminalFrame, Raise.bind_apply, candidate, parses, carries, payloadRead,
              isTerminal] at reports

theorem takeUsage_congr {first second : StreamStats} (same : first.usage = second.usage)
    (payload : Value) : (first.takeUsage payload).usage = (second.takeUsage payload).usage := by
  unfold StreamStats.takeUsage
  cases extractUsage payload with
  | none => exact same
  | some usage => rfl

theorem observeLightFrame_usage (frame : SseFrame) (stats : StreamStats) :
    (observeLightFrame frame stats).usage = stats.usage := by
  unfold observeLightFrame
  dsimp only
  split <;> rfl

/-- **An end that is overlooked**: the processor finds it, and the frame is no candidate. -/
theorem not_agree_of_overlooked {policy : CommitPolicy} {stats : StreamStats}
    (other : terminalCandidate frame = false)
    (reads : readFrame serde frame = .ok (.event parsed payload eventType))
    (ends : isTerminalEventType eventType = true) : ¬ TerminalsAgree serde policy frame stats := by
  intro agree
  obtain ⟨wire, after, relayed, -⟩ := ResponsesProcessor.relayEvent_transparent serde frame parsed
    payload eventType policy stats.countEvent
  have processes : ResponsesProcessor.process serde frame ⟨⟨policy, none⟩, stats⟩ =
      (.ok (processedEvent policy wire payload eventType), ⟨⟨policy, none⟩, after⟩) := by
    rw [ResponsesProcessor.process_eq, reads]
    exact relayed
  obtain ⟨inspected, reports, -⟩ :=
    agree.complete eventType _ _ (payloadType_of_readFrame reads) ends processes
  rw [inspect_other other] at reports
  have nothing : none = terminalOf eventType payload := Except.ok.inj (Prod.mk.inj reports).1
  have found := terminalOf_isSome ends payload
  rw [← nothing] at found
  cases found

end Agreement

/-- **The inspection agrees with the processor exactly where it is not too quick**: every frame that
passes the checks of the processor with a terminal type is a candidate. -/
theorem terminals_agree_iff (serde : Serde) (policy : CommitPolicy) (frame : SseFrame)
    (stats : StreamStats) :
    TerminalsAgree serde policy frame stats ↔
      (terminalCandidate frame = true ∨ ∀ parsed payload eventType,
        readFrame serde frame = .ok (.event parsed payload eventType) →
          isTerminalEventType eventType = false) := by
  constructor
  · intro agree
    cases candidate : terminalCandidate frame with
    | true => exact Or.inl rfl
    | false =>
      refine Or.inr fun parsed payload eventType reads => ?_
      cases ends : isTerminalEventType eventType with
      | false => rfl
      | true => exact absurd agree (not_agree_of_overlooked candidate reads ends)
  · intro quick
    refine ⟨fun eventType processed after typed ends processes => ?_,
      fun plain terminal inspected reports => ?_⟩
    · obtain ⟨parsed, payload, reads⟩ := readFrame_of_process typed processes
      have candidate : terminalCandidate frame = true := by
        rcases quick with candidate | never
        · exact candidate
        · exact absurd (ends.symm.trans (never parsed payload eventType reads)) (by decide)
      obtain ⟨wire, after', relayed, usage⟩ := ResponsesProcessor.relayEvent_transparent serde frame
        parsed payload eventType policy stats.countEvent
      rw [ResponsesProcessor.process_eq, reads] at processes
      have same := processes.symm.trans relayed
      cases same
      refine ⟨_, inspect_candidate candidate stats reads ends, ?_⟩
      have sameUsage : (observeLightFrame frame stats).usage = stats.countEvent.usage :=
        observeLightFrame_usage frame stats
      rw [usage]
      exact takeUsage_congr sameUsage payload
    · obtain ⟨eventType, typed, ends⟩ := inspect_sound reports
      exact absurd (ends.symm.trans (plain eventType typed)) (by decide)

/-! ### An overlooked end -/

/-- A decoder that knows one text. -/
def oneText (text : Bytes) (value : Value) : Serde where
  fromStr data := if data = text then some value else none
  toString _ := none
  sha256Hex digest := digest

/-- An error payload with a space behind the colon of its type. -/
def spacedError : Bytes := Utf8.lit "\x7b\"error\":\x7b\x7d,\"type\": \"error\"\x7d"

def spacedErrorValue : Value :=
  .object [(Utf8.lit "error", .object []), (Utf8.lit "type", .string (Utf8.lit "error"))]

/-- A data line and a blank line. -/
def dataFrame (data : Bytes) : SseFrame :=
  ⟨Utf8.lit "data: " ++ data ++ [lf, lf], 6 + data.length, true⟩

/-- **A space behind a colon hides the end of a stream**: the processor finds a failure, and the
inspection nothing. -/
theorem spaced_error_overlooked :
    ¬ TerminalsAgree (oneText spacedError spacedErrorValue) .realOutput (dataFrame spacedError)
      .fresh := by
  have other : terminalCandidate (dataFrame spacedError) = false := by decide
  have parses : parseSseFrame (dataFrame spacedError) =
      .ok ⟨Utf8.lit "data: " ++ spacedError, none, some spacedError, false⟩ := by decide
  have known : (oneText spacedError spacedErrorValue).fromStr spacedError = some spacedErrorValue := by
    simp only [oneText, if_true]
  have reads : readFrame (oneText spacedError spacedErrorValue) (dataFrame spacedError) =
      .ok (.event ⟨Utf8.lit "data: " ++ spacedError, none, some spacedError, false⟩ spacedErrorValue
        (Utf8.lit "error")) :=
    readFrame_event.mpr ⟨parses, spacedError, rfl,
      readPayload_ok_iff.mpr ⟨by decide, known, rfl⟩, by decide, rfl,
      by decide⟩
  exact not_agree_of_overlooked other reads (by decide)

end UniApi.Front
