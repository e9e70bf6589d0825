/-
**`collect_openai_chat_completion_from_streaming_sse`.**

The frames of a stream are parsed once each. Texts are kept in parts, tool calls by their index, and
the builder of completions gets what was collected; at the end the finish reason of the stream takes
the place of the builder's.

* `usageSnapshot`, `retain`, `processPayload`: the inner functions;
* `collectItems`: the loop over the frames;
* `collect`: the function.
-/

import UniApi.Lib.Dict
import UniApi.Streaming.ChatEvents

namespace UniApi.Streaming.Collector

open UniApi.Lib
open UniApi.Lib.PyData (lit)

/-! ### The collector's values -/

/-- What collecting raises. -/
inductive CollectError where
  /-- `ValueError`. -/
  | value (message : String)
  /-- `SSEProtocolError`. -/
  | protocol (message : String)
  /-- `SSEBufferOverflowError`. -/
  | bufferOverflow (bufferName : String) (limitBytes observedBytes : ℕ)
  /-- `SSEOutputLimitError`. -/
  | outputLimit (outputName : String) (limit observed : ℕ)
  /-- `UnicodeEncodeError`. -/
  | unicodeEncode
  /-- `OverflowError`. -/
  | overflow
  /-- What `parse_owned_json_value` raises besides. -/
  | parsing

/-- Why `int(value)` raises: a `TypeError` or a `ValueError`, or an `OverflowError`. -/
inductive IntFailure where
  | typeOrValue
  | overflow

/-- Why a text is not parsed. -/
inductive ParseFailure where
  /-- `JSONDecodeError`, `UnicodeDecodeError` or `JSONMemoryComplexityError`. -/
  | notJson
  | other

/-- What the collector calls, besides the builder. `nonFinite` is what `int` raises of a float that is
not finite, and `now` is `int(time())`. -/
structure CollectCalls extends BuilderCalls where
  parseOwnedJsonValue : PyText → Except ParseFailure PyData
  intOfText : PyText → Option ℤ
  nonFinite : IntFailure
  now : ℤ

/-- The limits of the collector. -/
structure Limits where
  maxBytes : ℕ := 8 * 1024 * 1024
  maxInputBytes : ℕ := 32 * 1024 * 1024
  maxFragments : ℕ := 65536
  maxToolCalls : ℕ := 128

/-- A member of `tool_calls_by_index`. -/
structure Entry where
  id : Option PyText := none
  name : Option PyText := none
  argumentsParts : List PyText := []

/-- The variables of the collector. -/
structure Collected where
  contentParts : List PyText := []
  reasoningParts : List PyText := []
  toolCallsByIndex : Dict ℤ Entry := Dict.empty
  retainedBytes : ℕ := 0
  retainedFragments : ℕ := 0
  observedInputBytes : ℕ := 0
  createdTs : Option ℤ := none
  usage : UsageCounts := {}
  doneSeen : Bool := false
  terminalFinishReason : Option PyText := none

/-- `members.get(key)`. -/
def member (members : List (String × PyData)) (key : String) : PyData :=
    (members.lookup key).getD .none

section Collect

variable (calls : CollectCalls) (limits : Limits)

/-! ### Counts -/

/-- `int(value)`. -/
def intOf : PyData → Except IntFailure ℤ
  | .bool value => .ok (if value then 1 else 0)
  | .int value => .ok value
  | .float (some value) => .ok (value.num.tdiv value.den)
  | .float none => .error calls.nonFinite
  | .str text =>
    match calls.intOfText text with
    | some value => .ok value
    | none => .error .typeOrValue
  | _ => .error .typeOrValue

/-- `integer`, the inner function of `_usage_snapshot`: the first path that leads to a value. -/
def integer (usage : PyData) (default : ℤ) : List (List PyKey) → Except CollectError ℤ
  | [] => .ok default
  | path :: paths =>
    match (usage.follow path).getD .none with
    | .none => integer usage default paths
    | candidate =>
      match intOf calls (candidate.orElse (.int 0)) with
      | .ok value => .ok value
      | .error .typeOrValue => .ok default
      | .error .overflow => .error .overflow

/-- `_usage_snapshot`. -/
def usageSnapshot (value : PyData) : Except CollectError UsageCounts := do
  let usage := PyData.dict (value.asDict.getD [])
  let promptTokens ← integer calls usage 0 [["prompt_tokens"], ["input_tokens"]]
  let completionTokens ← integer calls usage 0 [["completion_tokens"], ["output_tokens"]]
  let totalTokens ← integer calls usage (promptTokens + completionTokens) [["total_tokens"]]
  let promptDetail (name : String) : Except CollectError ℤ := integer calls usage 0
    [["prompt_tokens_details", name], ["input_tokens_details", name]]
  let completionDetail (name : String) : Except CollectError ℤ := integer calls usage 0
    [["completion_tokens_details", name], ["output_tokens_details", name]]
  let cachedTokens ← promptDetail "cached_tokens"
  let promptAudioTokens ← promptDetail "audio_tokens"
  let reasoningTokens ← completionDetail "reasoning_tokens"
  let completionAudioTokens ← completionDetail "audio_tokens"
  let acceptedPredictionTokens ← completionDetail "accepted_prediction_tokens"
  let rejectedPredictionTokens ← completionDetail "rejected_prediction_tokens"
  return {
    promptTokens, completionTokens, totalTokens, cachedTokens, promptAudioTokens, reasoningTokens
    completionAudioTokens, acceptedPredictionTokens, rejectedPredictionTokens }

/-! ### Retaining -/

/-- The slices of `range(0, len(text), size)`. -/
def slices (size : ℕ) (text : PyText) : List PyText :=
  (List.range ((text.length + size - 1) / size)).map fun index =>
    (text.drop (index * size)).take size

/-- The bytes of slices, one after the other, until there are more than `remaining`. -/
def encodedSize (remaining : ℕ) : ℕ → List PyText → Except CollectError ℕ
  | size, [] => .ok size
  | size, slice :: rest =>
    match Utf8.encodePoints slice with
    | none => .error .unicodeEncode
    | some bytes =>
      if remaining < size + bytes.length then .ok (size + bytes.length)
      else encodedSize remaining (size + bytes.length) rest

/-- `retain`. -/
def retain (state : Collected) (value : PyData) : Except CollectError (PyText × Collected) :=
  match value with
  | .str text =>
    let remaining := limits.maxBytes - state.retainedBytes
    if remaining < text.length then
      .error (.bufferOverflow "collected chat completion" limits.maxBytes
        (state.retainedBytes + text.length))
    else do
      let size ← encodedSize remaining 0 (slices (64 * 1024) text)
      let state := { state with retainedFragments := state.retainedFragments + 1 }
      if limits.maxFragments < state.retainedFragments then
        .error (.outputLimit "chat completion fragments" limits.maxFragments state.retainedFragments)
      else
        let state := { state with retainedBytes := state.retainedBytes + size }
        if limits.maxBytes < state.retainedBytes then
          .error (.bufferOverflow "collected chat completion" limits.maxBytes state.retainedBytes)
        else .ok (text, state)
  | _ => .error (.protocol "chat completion retained fragments must be strings")

/-- A value that is not null is retained and put where it belongs. -/
def retainMember (state : Collected) (value : PyData) (put : PyText → Collected → Collected) :
    Except CollectError Collected :=
  match value with
  | .none => .ok state
  | value => do
    let (text, state) ← retain limits state value
    return put text state

/-- A change of an entry of `tool_calls_by_index`. -/
def Collected.setEntry (state : Collected) (index : ℤ) (change : Entry → Entry) : Collected :=
  { state with toolCallsByIndex :=
      state.toolCallsByIndex.set index (change ((state.toolCallsByIndex.get index).getD {})) }

/-! ### Payloads -/

/-- The function of a tool call. -/
def processFunction (state : Collected) (index : ℤ) (function : List (String × PyData)) :
    Except CollectError Collected := do
  let state ← retainMember limits state (member function "name") fun text state =>
    state.setEntry index fun entry => { entry with name := some text }
  match member function "arguments" with
  | .none => return state
  | .str words => retainMember limits state (.str words) fun text state =>
      state.setEntry index fun entry => { entry with argumentsParts :=
        entry.argumentsParts ++ [text] }
  | _ => .error (.protocol "tool call arguments must be a string")

/-- A member of the `tool_calls` of a delta. -/
def processToolCall (state : Collected) (toolCall : PyData) : Except CollectError Collected :=
  match toolCall with
  | .dict members =>
    match (members.lookup "index").getD (.int 0) with
    | .int index =>
      if index < 0 then .error (.protocol "tool call index cannot be negative")
      else do
        let known := state.toolCallsByIndex.get index
        let count := state.toolCallsByIndex.entries.length
        if known.isNone ∧ limits.maxToolCalls ≤ count then
          .error (.outputLimit "tool calls" limits.maxToolCalls (count + 1))
        else
          let state := if known.isNone then state.setEntry index id else state
          let state ← retainMember limits state (member members "id") fun text state =>
            state.setEntry index fun entry => { entry with id := some text }
          match member members "function" with
          | .none => return state
          | .dict function => processFunction limits state index function
          | _ => .error (.protocol "tool call function must be a JSON object")
    | _ => .error (.protocol "tool call index must be a JSON integer")
  | _ => .error (.protocol "chat completion tool call must be a JSON object")

/-- The finish reason of a choice. -/
def processFinishReason (state : Collected) (finishReason : PyData) :
    Except CollectError Collected :=
  match finishReason with
  | .none => .ok state
  | .str words => do
    let (text, state) ← retain limits state (.str words)
    if state.terminalFinishReason.any (· ≠ text) then
      .error (.protocol "chat completion stream contains conflicting finish reasons")
    else return { state with terminalFinishReason := some text }
  | _ => .error (.protocol "chat completion finish_reason must be a string")

/-- A member of `choices`. -/
def processChoice (state : Collected) (choice : PyData) : Except CollectError Collected :=
  match choice with
  | .dict members =>
    match (member members "delta").orElse (.dict []) with
    | .dict delta => do
      let state ← processFinishReason limits state (member members "finish_reason")
      let state ← retainMember limits state (member delta "content") fun text state =>
        { state with contentParts := state.contentParts ++ [text] }
      let state ← retainMember limits state (member delta "reasoning_content") fun text state =>
        { state with reasoningParts := state.reasoningParts ++ [text] }
      match member delta "tool_calls" with
      | .none => return state
      | .list items => items.foldlM (processToolCall limits) state
      | _ => .error (.protocol "chat completion tool_calls must be a list")
    | _ => .error (.protocol "chat completion delta must be a JSON object")
  | _ => .error (.protocol "chat completion choice must be a JSON object")

/-- `created`, until a chunk has given it. -/
def processCreated (state : Collected) (created : PyData) : Except CollectError Collected :=
  match state.createdTs, created with
  | some _, _ => .ok state
  | none, .none => .ok state
  | none, created =>
    match intOf calls created with
    | .ok value => .ok { state with createdTs := some value }
    | .error .typeOrValue => .ok state
    | .error .overflow => .error .overflow

/-- `process_payload`. -/
def processPayload (state : Collected) (payload : PyData) : Except CollectError Collected :=
  match payload with
  | .dict members => do
    let state ← processCreated calls state (member members "created")
    let choices := member members "choices"
    let state ←
      match choices.truthy, member members "usage" with
      | false, .dict usage => do
        let usage ← usageSnapshot calls (.dict usage)
        pure { state with usage }
      | _, _ => pure state
    match choices with
    | .none => return state
    | .list items => items.foldlM (processChoice limits) state
    | _ => .error (.protocol "chat completion choices must be a list")
  | _ => .error (.protocol "chat completion stream payload must be a JSON object")

/-! ### Frames -/

/-- What the stream yields. -/
inductive Item where
  | none
  | text (text : PyText)
  | bytes (bytes : Bytes)
  | other

/-- What a frame says, before its JSON is parsed. -/
inductive Says where
  | skip
  | done
  | data (text : PyText)

/-- `frame_bytes`. -/
def frameBytes : Item → Except CollectError ℕ
  | .text text =>
    if limits.maxBytes < text.length then .ok text.length
    else encodedSize limits.maxBytes 0 (slices (64 * 1024) text)
  | .bytes bytes => .ok bytes.length
  | .none | .other => .error (.protocol "chat completion stream frames must be text or bytes")

/-- The text of a frame. -/
def rawText : Item → Except CollectError PyText
  | .text text => .ok text
  | .bytes bytes =>
    match Utf8.decodeAll bytes with
    | some text => .ok text
    | none => .error (.protocol "chat completion stream contains invalid UTF-8")
  | .none | .other => .error (.protocol "chat completion stream frames must be text or bytes")

/-- What a text says. -/
def saysOf (raw : PyText) : Says :=
  let data := PyText.strip raw
  if data = [] ∨ data.head? = some 58 then .skip
  else
    let data := if Utf8.points "data:" <+: data then PyText.strip (data.drop 5) else data
    if data = Utf8.points "[DONE]" then .done else .data data

/-- `async for item in sse_generator`. -/
def collectItems : List Item → Collected → Except CollectError Collected
  | [], state => .ok state
  | .none :: rest, state => collectItems rest state
  | item :: rest, state => do
    let bytes ← frameBytes limits item
    if limits.maxBytes < bytes then
      .error (.bufferOverflow "chat completion SSE frame" limits.maxBytes bytes)
    else
      let state := { state with observedInputBytes := state.observedInputBytes + bytes }
      if limits.maxInputBytes < state.observedInputBytes then
        .error (.bufferOverflow "chat completion SSE input" limits.maxInputBytes
          state.observedInputBytes)
      else
        match saysOf (← rawText item) with
        | .skip => collectItems rest state
        | .done => return { state with doneSeen := true }
        | .data text =>
          match calls.parseOwnedJsonValue text with
          | .ok payload => do
            let state ← processPayload calls limits state payload
            collectItems rest state
          | .error .notJson =>
            .error (.protocol "chat completion stream contains invalid or excessive JSON")
          | .error .other => .error .parsing

/-! ### The completion -/

/-- `text or None`. -/
def textOrNone (text : PyText) : PyData := if text = [] then .none else .str text

/-- A member of the `tool_calls` of the completion. -/
def callData (index : ℤ) (entry : Entry) : PyData :=
  let id := entry.id.getD []
  .dict [("id", .str (if id = [] then Utf8.points "call_" ++ Utf8.points (toString index) else id)),
    ("type", lit "function"),
    ("function", .dict [("name", (entry.name.map PyData.str).getD .none),
      ("arguments", .str entry.argumentsParts.flatten)])]

/-- `_finalize_collected_parts`: the tool calls. -/
def finalToolCalls (byIndex : Dict ℤ Entry) : PyData :=
  if byIndex.entries = [] then .none
  else .list (((byIndex.entries.map Prod.fst).mergeSort (· ≤ ·)).map fun index =>
    callData index ((byIndex.get index).getD {}))

/-- The arguments of the builder. -/
def builderArguments (state : Collected) (model role : PyData) : BuilderArguments where
  timestamp := state.createdTs.getD calls.now
  model := model
  content := textOrNone state.contentParts.flatten
  role := role
  counts := { state.usage with
    totalTokens := if state.usage.totalTokens ≠ 0 then state.usage.totalTokens
      else state.usage.promptTokens + state.usage.completionTokens }
  reasoningContent := textOrNone state.reasoningParts.flatten

/-- `choices[0]["finish_reason"] = terminal_finish_reason`. -/
def overrideFinishReason (result : PyData) (reason : PyText) : Except CollectError PyData :=
  match result with
  | .dict members =>
    match member members "choices" with
    | .list (.dict choice :: others) =>
      let choice := Dict.setEntries "finish_reason" (.str reason) choice
      .ok (.dict (Dict.setEntries "choices" (.list (.dict choice :: others)) members))
    | _ => .error (.protocol "generated chat completion response is missing choices")
  | _ => .error (.protocol "generated chat completion response is missing choices")

/-- The completion of what was collected. -/
def complete (state : Collected) (model role : PyData) : Except CollectError PyData :=
  let result := generateNoStreamResponse calls.toBuilderCalls
    (builderArguments calls state model role)
    { toolCallsList := finalToolCalls state.toolCallsByIndex }
  match state.terminalFinishReason with
  | some reason =>
    if reason ≠ [] ∧ reason ≠ Utf8.points "stop" then overrideFinishReason result reason
      else .ok result
  | none => .ok result

/-- `collect_openai_chat_completion_from_streaming_sse`. -/
def collect (items : List Item) (model role : PyData) : Except CollectError PyData := do
  if limits.maxBytes = 0 ∨ limits.maxInputBytes = 0 ∨ limits.maxFragments
    = 0 ∨ limits.maxToolCalls = 0 then
    .error (.value "chat completion collector limits must be positive")
  else
    let state ← collectItems calls limits items {}
    if state.doneSeen then complete calls state model role
    else .error (.protocol "chat completion stream ended without data: [DONE]")

end Collect

end UniApi.Streaming.Collector
