/-
**`ResponsesProcessor`: one frame of an upstream stream.**

A frame is parsed and checked, its item IDs are renamed, and the processor says which bytes go
downstream, whether the frame commits the attempt, and whether it ends the stream.

* `process_eq`: what becomes of a frame depends on what it says, `readFrame`, and on the normaliser;
* `relayEvent_transparent`: a payload the normaliser leaves alone is relayed verbatim;
* `readFrame_event`: what a frame that passes has said.
-/

import UniApi.Front.ItemIds
import UniApi.Front.SseFields

namespace UniApi.Front

open UniApi.Lib

/-! ### Payloads -/

/-- The types that end a stream. -/
def terminalEventTypes : List Bytes :=
  [Utf8.lit "error", Utf8.lit "response.completed", Utf8.lit "response.failed",
    Utf8.lit "response.incomplete"]

/-- `is_terminal_event_type`. -/
def isTerminalEventType (eventType : Bytes) : Bool := terminalEventTypes.contains eventType

inductive Terminal where
  | completed
  | incomplete
  | semanticFailure (eventType : Bytes) (payload : Value)

/-- `starts_with`. -/
def startsWith (text : Bytes) (start : String) : Bool := (Utf8.lit start).isPrefixOf text

/-- `ends_with`. -/
def endsWith (text : Bytes) (stop : String) : Bool := (Utf8.lit stop).isSuffixOf text

/-- `validate_terminal`. -/
def validateTerminal (eventType : Bytes) (payload : Value) : Except ProtocolError Unit :=
  if !isTerminalEventType eventType then .ok ()
  else
    match payload.asObject with
    | none => .error (.payload eventType "must be a JSON object")
    | some object =>
      if startsWith eventType "response." && !(object.get (Utf8.lit "response")).any Value.isObject then
        .error (.payload eventType "is missing response")
      else if eventType = Utf8.lit "error" && (object.get (Utf8.lit "error")).all Value.isNull then
        .error (.text "Responses upstream error payload is missing error")
      else .ok ()

/-- `eq_ignore_ascii_case("failed")` on an optional text. -/
def saysFailed (status : Option Bytes) : Bool := status.any (eqIgnoreAsciiCase · (Utf8.lit "failed"))

/-- `semantic_failure`. -/
def semanticFailure (eventType : Bytes) (payload : Value) : Bool :=
  if [Utf8.lit "error", Utf8.lit "response.failed"].contains eventType then true
  else
    let responseStatus := (payload.get (Utf8.lit "response")).bind (·.getStr (Utf8.lit "status"))
    saysFailed (payload.getStr (Utf8.lit "status")) || saysFailed responseStatus ||
      (payload.get (Utf8.lit "error")).any Value.isObject

/-- `is_canonical_keepalive`. -/
def isCanonicalKeepalive (payload : Value) : Bool :=
  match payload.asObject with
  | none => false
  | some object =>
    object.length == 2 &&
      (object.get (Utf8.lit "type")).bind Value.asStr == some (Utf8.lit "keepalive") &&
      (object.get (Utf8.lit "sequence_number")).bind Value.asI64 == some 0

/-- A string member that is there and not empty. -/
def hasText (value : Value) (field : Bytes) : Bool := (value.getStr field).any (!·.isEmpty)

/-- `part_has_text`. -/
def partHasText (part : Value) : Bool :=
  [Utf8.lit "text", Utf8.lit "refusal"].any (hasText part)

/-- `item_has_output`. -/
def itemHasOutput (item : Value) : Bool :=
  if ((item.get (Utf8.lit "content")).bind Value.asArray).any (·.any partHasText) then true
  else if (item.getStr (Utf8.lit "type")).all fun itemType =>
      !([Utf8.lit "function_call", Utf8.lit "tool_call"].contains itemType) then false
  else [Utf8.lit "name", Utf8.lit "arguments", Utf8.lit "call_id"].any (hasText item)

/-- `has_real_output`. -/
def hasRealOutput (eventType : Bytes) (payload : Value) : Bool :=
  if startsWith eventType "response." && endsWith eventType ".delta" then
    hasText payload (Utf8.lit "delta")
  else if [Utf8.lit "response.content_part.added",
      Utf8.lit "response.content_part.done"].contains eventType then
    (payload.get (Utf8.lit "part")).any partHasText
  else if eventType = Utf8.lit "response.output_item.done" then
    (payload.get (Utf8.lit "item")).any itemHasOutput
  else if startsWith eventType "response." && endsWith eventType ".done" then
    [Utf8.lit "text", Utf8.lit "refusal", Utf8.lit "arguments"].any (hasText payload)
  else false

/-- `extract_usage`. -/
def extractUsage (payload : Value) : Option Value :=
  (((payload.get (Utf8.lit "response")).bind (·.get (Utf8.lit "usage"))).filter Value.isObject).or
    ((payload.get (Utf8.lit "usage")).filter Value.isObject)

/-- The event line in front of the bytes of a frame. -/
def eventLine (eventType : Bytes) : Bytes := Utf8.lit "event: " ++ eventType ++ [lf]

/-- `encode_event`. -/
def encodeEvent (serde : Serde) (eventType : Bytes) (payload : Value) : Except ProtocolError Bytes :=
  match serde.toString payload with
  | none => .error (.json "Responses event encoding failed: ")
  | some data => .ok (eventLine eventType ++ Utf8.lit "data: " ++ data ++ [lf, lf])

/-! ### What a frame says -/

/-- The payload of a frame's data and its type. -/
def readPayload (serde : Serde) (noun : String) (data : Bytes) :
    Except ProtocolError (Value × Bytes) :=
  if trim data = Utf8.points "[DONE]" then
    .error (.text "Responses upstream emitted [DONE] without a terminal response event")
  else
    match serde.fromStr data with
    | none => .error (.json ("Responses upstream " ++ noun ++ " JSON is invalid: "))
    | some payload =>
      match payload.getStr (Utf8.lit "type") with
      | none => .error (.text ("Responses upstream " ++ noun ++ " payload is missing a string type"))
      | some eventType => .ok (payload, eventType)

/-- The declared event, if there is one, is the type of the payload. -/
def checkDeclared (declaredEvent : Option Bytes) (eventType : Bytes) : Except ProtocolError Unit :=
  match declaredEvent with
  | none => .ok ()
  | some declared => if declared ≠ eventType then .error (.eventMismatch declared eventType) else .ok ()

/-- A type that can stand in an event line. -/
def checkEventType (eventType : Bytes) : Except ProtocolError Unit :=
  if 256 < eventType.length || eventType.contains cr || eventType.contains lf then
    .error (.text "Responses upstream event type is invalid")
  else .ok ()

/-- What `process` finds in a frame before it changes anything. -/
inductive FrameContent where
  /-- Comments only. -/
  | comment (raw : Bytes)
  /-- No data. -/
  | empty
  /-- An event. -/
  | event (parsed : ParsedSseFrame) (payload : Value) (eventType : Bytes)

/-- The checks of `process`. -/
def readFrame (serde : Serde) (frame : SseFrame) : Except ProtocolError FrameContent := do
  let parsed ← parseSseFrame frame
  if parsed.commentOnly then return .comment parsed.raw
  else
    match parsed.data with
    | none => return .empty
    | some data => do
      let (payload, eventType) ← readPayload serde "event" data
      checkEventType eventType
      checkDeclared parsed.declaredEvent eventType
      validateTerminal eventType payload
      return .event parsed payload eventType

/-! ### The processor -/

inductive CommitPolicy where
  | completedUsage
  | realOutput
  deriving DecidableEq

/-- `match commit_policy.trim().to_ascii_lowercase()` of `ResponsesProcessor::new`. -/
def CommitPolicy.new (commitPolicy : Bytes) : CommitPolicy :=
  let lowered := (trim commitPolicy).map fun point =>
    if 65 ≤ point && point ≤ 90 then point + 32 else point
  if lowered = Utf8.points "completed_usage" then completedUsage else realOutput

structure ResponsesProcessor where
  commitPolicy : CommitPolicy
  normalizer : Option ResponsesItemIdNormalizer

/-- `new`. -/
def ResponsesProcessor.new (commitPolicy : Bytes) (normalizeIds : Bool) : ResponsesProcessor where
  commitPolicy := CommitPolicy.new commitPolicy
  normalizer := if normalizeIds then some .fresh else none

/-- `saturating_add(1)`. -/
def saturatingSucc (count : Nat) : Nat := min (count + 1) (2 ^ 64 - 1)

structure StreamStats where
  eventCount : Nat
  deltaEvents : Nat
  normalizedEvents : Nat
  usage : Option Value

namespace StreamStats

/-- `default`. -/
def fresh : StreamStats := ⟨0, 0, 0, none⟩

/-- An event more. -/
def countEvent (stats : StreamStats) : StreamStats :=
  { stats with eventCount := saturatingSucc stats.eventCount }

/-- A rewritten event more. -/
def countNormalized (stats : StreamStats) : StreamStats :=
  { stats with normalizedEvents := saturatingSucc stats.normalizedEvents }

/-- A delta more, if the type says so. -/
def countDelta (eventType : Bytes) (stats : StreamStats) : StreamStats :=
  if endsWith eventType ".delta" then
    { stats with deltaEvents := saturatingSucc stats.deltaEvents } else stats

/-- The usage of the payload, if it has one. -/
def takeUsage (payload : Value) (stats : StreamStats) : StreamStats :=
  match extractUsage payload with
  | none => stats
  | some usage => { stats with usage := some usage }

end StreamStats

structure ProcessedEvent where
  wire : Option Bytes
  eventType : Option Bytes
  commits : Bool
  canonicalKeepalive : Bool
  terminal : Option Terminal

/-- What is neither an event nor an end. -/
def ProcessedEvent.plain (wire : Option Bytes) : ProcessedEvent := ⟨wire, none, false, false, none⟩

/-- What `process` works on. -/
structure Processing where
  processor : ResponsesProcessor
  stats : StreamStats

namespace Processing

/-- A change of the statistics. -/
def observe (change : StreamStats → StreamStats) (before : Processing) : Processing :=
  { before with stats := change before.stats }

end Processing

/-- The end of the stream that a payload is. -/
def terminalOf (eventType : Bytes) (payload : Value) : Option Terminal :=
  if semanticFailure eventType payload then some (.semanticFailure eventType payload)
  else if eventType = Utf8.lit "response.completed" then some .completed
  else if eventType = Utf8.lit "response.incomplete" then some .incomplete
  else none

/-- Types that never commit. -/
def quietEventTypes : List Bytes :=
  [Utf8.lit "response.created", Utf8.lit "response.in_progress", Utf8.lit "response.queued",
    Utf8.lit "keepalive"]

/-- The event that goes on. -/
def processedEvent (policy : CommitPolicy) (wire : Bytes) (payload : Value) (eventType : Bytes) :
    ProcessedEvent where
  wire := some wire
  eventType := some eventType
  commits := (terminalOf eventType payload).isSome ||
    (!(quietEventTypes.contains eventType) && policy != .completedUsage &&
      hasRealOutput eventType payload)
  canonicalKeepalive := eventType = Utf8.lit "keepalive" && isCanonicalKeepalive payload
  terminal := terminalOf eventType payload

/-- What the front sends to tell that a comment is not for clients. -/
def flushMark : Bytes := Utf8.lit ": oaix-terminal-flush-v1 "

namespace ResponsesProcessor

/-- A call of the processor. -/
abbrev Run := Raise ProtocolError Processing

variable (serde : Serde)

/-- `normalizer.normalize(&mut payload)`, if there is a normaliser. -/
def normalizePayload (payload : Value) : Run (Bool × Value) := do
  let before ← Raise.get
  match before.processor.normalizer with
  | none => pure (false, payload)
  | some normalizer => do
    let (changed, payload, normalizer) ← Raise.ofExcept (normalizer.normalize serde payload)
    Raise.modify fun before =>
      { before with processor := { before.processor with normalizer := some normalizer } }
    pure (changed, payload)

/-- The bytes that go downstream. -/
def eventWire (frame : SseFrame) (parsed : ParsedSseFrame) (eventType : Bytes) (payload : Value)
    (normalized : Bool) : Run Bytes :=
  if normalized then do
    Raise.modify (·.observe .countNormalized)
    Raise.ofExcept (encodeEvent serde eventType payload)
  else if parsed.declaredEvent.isNone then do
    Raise.modify (·.observe .countNormalized)
    pure (eventLine eventType ++ parsed.raw ++ [lf, lf])
  else pure frame.canonicalWire

/-- The part of `process` behind the checks. -/
def relayEvent (frame : SseFrame) (parsed : ParsedSseFrame) (payload : Value) (eventType : Bytes) :
    Run ProcessedEvent := do
  let (normalized, payload) ← normalizePayload serde payload
  let wire ← eventWire serde frame parsed eventType payload normalized
  Raise.modify (·.observe (.countDelta eventType))
  Raise.modify (·.observe (.takeUsage payload))
  let after ← Raise.get
  pure (processedEvent after.processor.commitPolicy wire payload eventType)

/-- `process`. -/
def process (frame : SseFrame) : Run ProcessedEvent := do
  Raise.modify (·.observe .countEvent)
  match ← Raise.ofExcept (readFrame serde frame) with
  | .comment raw =>
    if flushMark.isPrefixOf raw then pure (.plain none) else pure (.plain (some frame.canonicalWire))
  | .empty => pure (.plain none)
  | .event parsed payload eventType => relayEvent serde frame parsed payload eventType

/-! ### What becomes of a frame -/

/-- **What becomes of a frame** depends on what it says. -/
theorem process_eq (frame : SseFrame) (before : Processing) :
    process serde frame before =
      match readFrame serde frame with
      | .error error => (.error error, before.observe .countEvent)
      | .ok (.comment raw) =>
        (.ok (.plain (if flushMark.isPrefixOf raw then none else some frame.canonicalWire)),
          before.observe .countEvent)
      | .ok .empty => (.ok (.plain none), before.observe .countEvent)
      | .ok (.event parsed payload eventType) =>
        relayEvent serde frame parsed payload eventType (before.observe .countEvent) := by
  unfold process
  simp only [Raise.bind_apply, Raise.modify_apply, Raise.ofExcept_apply]
  cases readFrame serde frame with
  | error error => rfl
  | ok content =>
    cases content with
    | comment raw => by_cases flush : flushMark.isPrefixOf raw <;> simp [flush]
    | empty | event parsed payload eventType => rfl

/-- **Without a normaliser** the payload stays, and so does what it says of usage and the end. -/
theorem relayEvent_transparent (frame : SseFrame) (parsed : ParsedSseFrame) (payload : Value)
    (eventType : Bytes) (policy : CommitPolicy) (stats : StreamStats) :
    ∃ wire after, relayEvent serde frame parsed payload eventType ⟨⟨policy, none⟩, stats⟩ =
        (.ok (processedEvent policy wire payload eventType), ⟨⟨policy, none⟩, after⟩) ∧
      after.usage = (stats.takeUsage payload).usage := by
  have usage : ∀ before : StreamStats, before.usage = stats.usage →
      ((before.countDelta eventType).takeUsage payload).usage = (stats.takeUsage payload).usage := by
    intro before same
    unfold StreamStats.takeUsage StreamStats.countDelta
    cases extractUsage payload with
    | some usage => rfl
    | none =>
      dsimp only
      split <;> exact same
  unfold relayEvent normalizePayload eventWire
  by_cases undeclared : parsed.declaredEvent.isNone
  · refine ⟨eventLine eventType ++ parsed.raw ++ [lf, lf],
      (stats.countNormalized.countDelta eventType).takeUsage payload, ?_, usage _ rfl⟩
    simp [Raise.bind_apply, undeclared, Processing.observe]
  · refine ⟨frame.canonicalWire, (stats.countDelta eventType).takeUsage payload, ?_, usage _ rfl⟩
    simp [Raise.bind_apply, undeclared, Processing.observe]

end ResponsesProcessor

/-- **The checks a frame with an event has passed.** -/
theorem readFrame_event {serde : Serde} {frame : SseFrame} {parsed : ParsedSseFrame} {payload : Value}
    {eventType : Bytes} :
    readFrame serde frame = .ok (.event parsed payload eventType) ↔
      parseSseFrame frame = .ok parsed ∧ ∃ data, parsed.data = some data ∧
        readPayload serde "event" data = .ok (payload, eventType) ∧
        checkEventType eventType = .ok () ∧ checkDeclared parsed.declaredEvent eventType = .ok () ∧
        validateTerminal eventType payload = .ok () := by
  unfold readFrame
  cases parses : parseSseFrame frame with
  | error error => simp [bind, Except.bind]
  | ok found =>
    cases carries : found.data with
    | none =>
      simp only [bind, Except.bind, carries]
      constructor
      · split <;> simp [pure, Except.pure]
      · rintro ⟨same, data, isData, -⟩
        cases same
        simp [carries] at isData
    | some data =>
      simp only [bind, Except.bind, carries, not_commentOnly_of_data parses carries, pure, Except.pure,
        Bool.false_eq_true, if_false, Except.ok.injEq]
      constructor
      · intro reads
        cases payloadRead : readPayload serde "event" data with
        | error error => simp [payloadRead] at reads
        | ok values =>
          cases typeCheck : checkEventType values.2 with
          | error error => simp [payloadRead, typeCheck] at reads
          | ok _ =>
            cases declaredCheck : checkDeclared found.declaredEvent values.2 with
            | error error => simp [payloadRead, typeCheck, declaredCheck] at reads
            | ok _ =>
              cases terminalCheck : validateTerminal values.2 values.1 with
              | error error => simp [payloadRead, typeCheck, declaredCheck, terminalCheck] at reads
              | ok _ =>
                simp only [payloadRead, typeCheck, declaredCheck, terminalCheck, Except.ok.injEq,
                  FrameContent.event.injEq] at reads
                obtain ⟨rfl, rfl, rfl⟩ := reads
                exact ⟨rfl, data, carries, payloadRead, typeCheck, declaredCheck, terminalCheck⟩
      · rintro ⟨rfl, data', isData, payloadRead, typeCheck, declaredCheck, terminalCheck⟩
        cases carries.symm.trans isData
        simp only [payloadRead, typeCheck, declaredCheck, terminalCheck]

end UniApi.Front
