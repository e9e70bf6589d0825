/-
**Claude answers: `fetch_claude_response_stream` and `_yield_claude_chat_completion`.**

The stream takes what an event has by its shape, and ends with the first count of output tokens. The
completion takes the text of the first block and the call of the second one.

* `fetch_sends`: what a client has of the stream of a message, whatever the pieces of its blocks, and with
  comments and `ping` events anywhere;
* `yield_eq`, `arguments_content`, `arguments_noCall`, `arguments_call`: what the completion is built of;
* `claude_answers_agree_iff`: when the two are the same;
* `claude_stream_keeps_iff`: what the stream keeps of a message.
-/

import UniApi.Providers.Sending

namespace UniApi.Providers

open UniApi.Lib UniApi.Streaming
open UniApi.Lib.PyData (lit)
open UniApi.Streaming.Client (Parts)

/-! ### The stream -/

/-- An event of an upstream stream, as its parser gives it. -/
structure SseEvent where
  isComment : Bool := false
  eventName : Option PyText := none
  payload : PyData

/-- `not str(value or "").strip()`. -/
def isBlank (value : PyData) : Bool :=
  match value with
  | .str text => (PyText.strip text).isEmpty
  | value => !value.truthy

/-- What `fetch_claude_response_stream` keeps between events. -/
structure ClaudeState where
  inputTokens : ℤ := 0
  cacheReadInputTokens : ℤ := 0
  terminalSeen : Bool := false

section Stream

variable (calls : StreamCalls)

/-- A count that is kept from event to event. -/
def keptCount (kept : ℤ) (resp : PyData) (name : String) : ℤ :=
  calls.coerce ((PyData.int kept).orElse
    ((calls.safeGet resp ["message", "usage", name] (.int 0)).orElse
      (calls.safeGet resp ["usage", name] (.int 0))))

/-- The counts of the usage chunk. -/
def claudeUsage (inputTokens cacheReadInputTokens outputTokens thinkingTokens : ℤ) : UsageCounts where
  totalTokens := inputTokens + outputTokens
  promptTokens := inputTokens
  completionTokens := outputTokens
  cachedTokens := cacheReadInputTokens
  reasoningTokens := thinkingTokens

/-- The body of the loop on the content of an event, and whether it breaks. -/
def claudeContent (state : ClaudeState) (resp : PyData) : Sending (ClaudeState × Bool) := do
  let text := calls.safeGet resp ["delta", "text"] (lit "")
  if text.truthy then
    sendSse calls.toBuilderCalls { calls.base with content := text }
    return (state, false)
  let functionCallName := calls.safeGet resp ["content_block", "name"] .none
  let toolsId := calls.safeGet resp ["content_block", "id"] .none
  sendSseIf (toolsId.truthy && functionCallName.truthy) calls.toBuilderCalls { calls.base with
    toolsId := toolsId
    functionCallName := functionCallName }
  let thinkingContent := calls.safeGet resp ["delta", "thinking"] (lit "")
  sendSseIf thinkingContent.truthy calls.toBuilderCalls { calls.base with
    reasoningContent := thinkingContent }
  let functionCallContent := calls.safeGet resp ["delta", "partial_json"] (lit "")
  sendSseIf functionCallContent.truthy calls.toBuilderCalls { calls.base with
    functionCallContent := functionCallContent }
  return (state, state.terminalSeen)

/-- The body of the loop on a JSON object, and whether it breaks. -/
def claudeObject (state : ClaudeState) (eventName : Option PyText) (resp : PyData) :
    Sending (ClaudeState × Bool) :=
  let terminalSeen := state.terminalSeen || eventName == some (Utf8.points "message_stop")
    || ((resp.part "type").getD .none).isText "message_stop"
  let inputTokens := keptCount calls state.inputTokens resp "input_tokens"
  let cacheReadInputTokens := keptCount calls state.cacheReadInputTokens resp "cache_read_input_tokens"
  let outputTokens := calls.coerce (calls.safeGet resp ["usage", "output_tokens"] (.int 0))
  if outputTokens ≠ 0 then do
    let thinkingTokens := calls.coerce
      (calls.safeGet resp ["usage", "output_tokens_details", "thinking_tokens"] (.int 0))
    sendSse calls.toBuilderCalls { calls.base with
      counts := claudeUsage inputTokens cacheReadInputTokens outputTokens thinkingTokens }
    return (⟨inputTokens, cacheReadInputTokens, true⟩, true)
  else claudeContent calls ⟨inputTokens, cacheReadInputTokens, terminalSeen⟩ resp

/-- The body of the loop of `fetch_claude_response_stream`, and whether it breaks. -/
def claudeEvent (state : ClaudeState) (event : SseEvent) : Sending (ClaudeState × Bool) :=
  if event.isComment then return (state, false)
  else if event.payload.isText "[DONE]" then return ({ state with terminalSeen := true }, true)
  else match event.payload with
    | .dict members => claudeObject calls state event.eventName (.dict members)
    | payload =>
      if isBlank payload then return (state, false)
      else Raise.throw (.protocol "Claude upstream SSE data is not valid JSON")

/-- `fetch_claude_response_stream`, on the events of a response that succeeded. -/
def fetchClaudeResponseStream (events : List SseEvent) : Sending Unit := do
  let state ← loop (claudeEvent calls) {} events
  if !state.terminalSeen then Raise.throw (.protocol "Claude upstream ended without message_stop")
  send .done

/-- `_yield_claude_chat_completion`, of the JSON value of the response. -/
def yieldClaudeChatCompletion (response : PyData) : PyData :=
  let count (keys : List PyKey) := calls.coerce (calls.safeGet response keys (.int 0))
  let promptTokens := count ["usage", "input_tokens"]
  let outputTokens := count ["usage", "output_tokens"]
  generateNoStreamResponse calls.toBuilderCalls { calls.base with
    content := calls.safeGet response ["content", 0, "text"] .none
    toolsId := calls.safeGet response ["content", 1, "id"] .none
    functionCallName := calls.safeGet response ["content", 1, "name"] .none
    functionCallContent := calls.safeGet response ["content", 1, "input"] .none
    role := calls.safeGet response ["role"] .none
    counts := claudeUsage promptTokens (count ["usage", "cache_read_input_tokens"]) outputTokens
      (count ["usage", "output_tokens_details", "thinking_tokens"]) }

end Stream

/-! ### Messages and their streams -/

/-- A content block of a message. A call has an id and a name. -/
inductive ClaudeBlock where
  | text (text : PyText)
  | thinking (thinking signature : PyText)
  | toolUse (id name : PyText) (input : List (String × PyData)) (hasId : id ≠ []) (hasName : name ≠ [])

namespace ClaudeBlock

/-- The block in a whole message. -/
def json : ClaudeBlock → PyData
  | .text words => .dict [("type", lit "text"), ("text", .str words)]
  | .thinking words signature =>
    .dict [("type", lit "thinking"), ("thinking", .str words), ("signature", .str signature)]
  | .toolUse id name input _ _ =>
    .dict [("type", lit "tool_use"), ("id", .str id), ("name", .str name), ("input", .dict input)]

/-- The block when its stream starts. -/
def started : ClaudeBlock → PyData
  | .text _ => .dict [("type", lit "text"), ("text", lit "")]
  | .thinking _ _ => .dict [("type", lit "thinking"), ("thinking", lit ""), ("signature", lit "")]
  | .toolUse id name _ _ _ =>
    .dict [("type", lit "tool_use"), ("id", .str id), ("name", .str name), ("input", .dict [])]

/-- A piece of the block in its stream. -/
def delta (piece : PyText) : ClaudeBlock → PyData
  | .text _ => .dict [("type", lit "text_delta"), ("text", .str piece)]
  | .thinking _ _ => .dict [("type", lit "thinking_delta"), ("thinking", .str piece)]
  | .toolUse .. => .dict [("type", lit "input_json_delta"), ("partial_json", .str piece)]

/-- The text of a text block. -/
def textPart : ClaudeBlock → PyText
  | .text words => words
  | _ => []

/-- The text of a thinking block. -/
def thinkingPart : ClaudeBlock → PyText
  | .thinking words _ => words
  | _ => []

/-- The input of a tool_use block. -/
def input? : ClaudeBlock → Option (List (String × PyData))
  | .toolUse _ _ input _ _ => some input
  | _ => none

/-- The pieces of a block, put together, are the block. A call without arguments may have no text. -/
def Spells (codec : JsonCodec) (written signature : PyText) : ClaudeBlock → Prop
  | .text words => written = words ∧ signature = []
  | .thinking words own => written = words ∧ signature = own
  | .toolUse _ _ input _ _ =>
    (codec.loads written = some (.dict input) ∨ written = [] ∧ input = []) ∧ signature = []

end ClaudeBlock

/-- A block with the pieces in which it is sent. -/
structure StreamedBlock (codec : JsonCodec) where
  block : ClaudeBlock
  pieces : List PyText
  signatures : List PyText
  spells : block.Spells codec pieces.flatten signatures.flatten

/-- The `usage` of a message. -/
structure ClaudeUsage where
  inputTokens : ℕ
  cacheReadInputTokens : Option ℕ
  outputTokens : ℕ
  thinkingTokens : Option ℕ

namespace ClaudeUsage

/-- The counts of the input. -/
def inputMembers (usage : ClaudeUsage) : List (String × PyData) :=
  ("input_tokens", .int usage.inputTokens)
    :: (usage.cacheReadInputTokens.map fun count => ("cache_read_input_tokens", PyData.int count)).toList

/-- The counts of the output. -/
def outputMembers (usage : ClaudeUsage) : List (String × PyData) :=
  ("output_tokens", .int usage.outputTokens)
    :: (usage.thinkingTokens.map fun count =>
      ("output_tokens_details", PyData.dict [("thinking_tokens", .int count)])).toList

end ClaudeUsage

/-- An event with its type as its name. -/
def claudeEventOf (type : String) (members : List (String × PyData)) : SseEvent where
  eventName := some (Utf8.points type)
  payload := .dict (("type", lit type) :: members)

/-- What a `message_delta` counts of the output, and whether it repeats the counts of the input. -/
structure ClaudeCount where
  outputTokens : ℕ
  thinkingTokens : Option ℕ
  repeatsInput : Bool

/-- A message with a stream of it: its blocks with their pieces, the output count with which it starts, and
the counts in front of the last one. -/
structure ClaudeStream (codec : JsonCodec) where
  id : PyText
  model : PyText
  stopReason : PyText
  blocks : List (StreamedBlock codec)
  usage : ClaudeUsage
  firstOutputTokens : ℕ
  earlier : List ClaudeCount
  lastRepeats : Bool

namespace ClaudeStream

variable {codec : JsonCodec} (stream : ClaudeStream codec)

/-- A message without its content and its usage. -/
def header (stopReason : PyData) : List (String × PyData) :=
  [("id", .str stream.id), ("type", lit "message"), ("role", lit "assistant"), ("model", .str stream.model),
    ("stop_reason", stopReason), ("stop_sequence", .none)]

/-- The whole message. -/
def message : PyData :=
  .dict (stream.header (.str stream.stopReason)
    ++ [("content", .list (stream.blocks.map (·.block.json))),
      ("usage", .dict (stream.usage.inputMembers ++ stream.usage.outputMembers))])

/-- `message_start`. -/
def start : SseEvent :=
  claudeEventOf "message_start" [("message", .dict (stream.header .none
    ++ [("content", .list []), ("usage", .dict (stream.usage.inputMembers
      ++ [("output_tokens", .int stream.firstOutputTokens)]))]))]

/-- The events of a block. -/
def blockEvents (index : ℕ) (streamed : StreamedBlock codec) : List SseEvent :=
  claudeEventOf "content_block_start" [("index", .int index), ("content_block", streamed.block.started)]
    :: (streamed.pieces.map fun piece =>
        claudeEventOf "content_block_delta" [("index", .int index), ("delta", streamed.block.delta piece)])
    ++ (streamed.signatures.map fun piece =>
        claudeEventOf "content_block_delta" [("index", .int index),
          ("delta", .dict [("type", lit "signature_delta"), ("signature", .str piece)])])
    ++ [claudeEventOf "content_block_stop" [("index", .int index)]]

/-- The events of blocks, from this index on. -/
def blocksEvents : ℕ → List (StreamedBlock codec) → List SseEvent
  | _, [] => []
  | index, streamed :: others => blockEvents index streamed ++ blocksEvents (index + 1) others

/-- The counts of the output, the last of which are those of the message. -/
def counts : List ClaudeCount :=
  stream.earlier ++ [⟨stream.usage.outputTokens, stream.usage.thinkingTokens, stream.lastRepeats⟩]

/-- `message_delta`. -/
def messageDelta (count : ClaudeCount) : SseEvent :=
  let usage : ClaudeUsage :=
    { stream.usage with outputTokens := count.outputTokens, thinkingTokens := count.thinkingTokens }
  claudeEventOf "message_delta"
    [("delta", .dict [("stop_reason", .str stream.stopReason), ("stop_sequence", .none)]),
      ("usage", .dict (usage.outputMembers ++ (if count.repeatsInput then usage.inputMembers else [])))]

/-- The events of the message. -/
def events : List SseEvent :=
  stream.start :: (blocksEvents 0 stream.blocks
    ++ (stream.counts.map stream.messageDelta ++ [claudeEventOf "message_stop" []]))

end ClaudeStream

/-- A comment or a `ping`. -/
def SseEvent.isIdle (event : SseEvent) : Bool :=
  event.isComment || event.eventName == some (Utf8.points "ping") &&
    match event.payload with
    | .dict [("type", type)] => type.isText "ping"
    | _ => false

/-! ### Counts -/

section Counts

variable {calls : StreamCalls}

/-- A count that is known is kept by an event that does not have it, or repeats it. -/
theorem keptCount_eq {kept : ℤ} {resp : PyData} {name : String} {count : ℕ}
    (known : kept = calls.coerce (.int count)) (noMessage : resp.follow ["message", "usage", name] = none)
    (repeated : resp.follow ["usage", name] = none ∨ resp.follow ["usage", name] = some (.int count)) :
    keptCount calls kept resp name = kept := by
  by_cases zero : count = 0
  · subst zero
    have isZero : kept = 0 := known
    have later : calls.safeGet resp ["usage", name] (.int 0) = .int 0 := by
      rcases repeated with lost | found
      · exact PyData.safeGet_of_none lost
      · exact safeGet_count found
    have first : calls.safeGet resp ["message", "usage", name] (.int 0) = .int 0 :=
      PyData.safeGet_of_none noMessage
    rw [keptCount, first, later, isZero]
    rfl
  · have nonzero : kept ≠ 0 := fun isZero => zero ((coerce_eq_zero count).mp (known ▸ isZero))
    rw [keptCount, PyData.orElse, if_pos ((PyData.truthy_int kept).mpr nonzero), known, coerce_coerce]

/-- What the loop has kept of the input of a message. -/
def known (calls : StreamCalls) (usage : ClaudeUsage) : ClaudeState where
  inputTokens := calls.coerce (.int usage.inputTokens)
  cacheReadInputTokens := calls.coerce (.int (usage.cacheReadInputTokens.getD 0 : ℕ))

end Counts

/-! ### Events without counts -/

section Events

variable {calls : StreamCalls} {usage : ClaudeUsage}

/-- The members of an event that neither counts nor ends. -/
structure IsPlain (resp : PyData) : Prop where
  noUsage : resp.part "usage" = none
  noMessage : resp.part "message" = none

variable {resp : PyData} {state : ClaudeState}

theorem IsPlain.follow_usage (plain : IsPlain resp) (keys : List PyKey) :
    resp.follow ("usage" :: keys) = none := by
  rw [PyData.follow, plain.noUsage]
  rfl

theorem IsPlain.follow_message (plain : IsPlain resp) (keys : List PyKey) :
    resp.follow ("message" :: keys) = none := by
  rw [PyData.follow, plain.noMessage]
  rfl

/-- An event without an output count is its content. -/
theorem claudeObject_of_zero {eventName : Option PyText}
    (zero : calls.coerce (calls.safeGet resp ["usage", "output_tokens"] (.int 0)) = 0) :
    claudeObject calls state eventName resp
      = claudeContent calls ⟨keptCount calls state.inputTokens resp "input_tokens",
          keptCount calls state.cacheReadInputTokens resp "cache_read_input_tokens",
          state.terminalSeen || eventName == some (Utf8.points "message_stop")
            || ((resp.part "type").getD .none).isText "message_stop"⟩ resp :=
  if_neg (not_not.mpr zero)

/-- An event without counts that does not end the message is its content. -/
theorem claudeObject_plain {eventName : Option PyText} (plain : IsPlain resp)
    (notNamed : (eventName == some (Utf8.points "message_stop")) = false)
    (notTyped : ((resp.part "type").getD .none).isText "message_stop" = false) :
    claudeObject calls (known calls usage) eventName resp = claudeContent calls
      (known calls usage) resp := by
  have noOutput : calls.safeGet resp ["usage", "output_tokens"] (.int 0) = .int 0 :=
    PyData.safeGet_of_none (plain.follow_usage _)
  have input : keptCount calls (known calls usage).inputTokens resp "input_tokens"
      = (known calls usage).inputTokens :=
    keptCount_eq rfl (plain.follow_message _) (.inl (plain.follow_usage _))
  have cached : keptCount calls (known calls usage).cacheReadInputTokens resp "cache_read_input_tokens"
      = (known calls usage).cacheReadInputTokens :=
    keptCount_eq rfl (plain.follow_message _) (.inl (plain.follow_usage _))
  rw [claudeObject_of_zero (by rw [noOutput]; rfl), input, cached, notNamed, notTyped]
  rfl

theorem claudeContent_of_text {words : PyText}
    (leads : Leads resp ["delta", "text"] words) (some_ : words ≠ []) :
    Returns (claudeContent calls state resp) (state, false) { content := words } := by
  have adds := Client.deltaParts_content calls.timestamp calls.model some_
  rw [claudeContent, leads.safeGet]
  show Returns (if (PyData.str words).truthy = true then _ else _) _ _
  rw [if_pos ((PyData.truthy_str words).mpr some_), ← adds]
  exact (Returns.sse calls.toBuilderCalls { calls.base with content := .str words } rfl).bind_pure _

/-- What a piece of arguments adds. -/
def argumentsParts (words : PyText) : Parts :=
  { toolDeltas := if words = [] then [] else [Client.argumentsDelta words] }

/-- What the start of a block adds. -/
def startParts : Option (PyText × PyText) → Parts
  | some call => { toolDeltas := [Client.headerDelta call.1 call.2] }
  | none => {}

/-- The start of a call in an event, or no start of a block. -/
def Starts (resp : PyData) : Option (PyText × PyText) → Prop
  | some call => call.1 ≠ [] ∧ call.2 ≠ [] ∧ resp.follow ["content_block", "id"] = some (.str call.1)
      ∧ resp.follow ["content_block", "name"] = some (.str call.2)
  | none => resp.follow ["content_block", "name"] = none

theorem Starts.adds {call : Option (PyText × PyText)} (starts : Starts resp call) :
    Returns (sendSseIf ((calls.safeGet resp ["content_block", "id"] .none).truthy
        && (calls.safeGet resp ["content_block", "name"] .none).truthy) calls.toBuilderCalls
          { calls.base with
      toolsId := calls.safeGet resp ["content_block", "id"] .none
      functionCallName := calls.safeGet resp ["content_block", "name"] .none }) () (startParts call) := by
  cases call with
  | none =>
    have noName : calls.safeGet resp ["content_block", "name"] .none = .none :=
        PyData.safeGet_of_none starts
    refine Returns.sseIf _ _ rfl ?_
    rw [noName, show PyData.none.truthy = false from rfl, Bool.and_false]
    rfl
  | some call =>
    obtain ⟨hasId, hasName, id, name⟩ := starts
    have idTrue := (PyData.truthy_str call.1).mpr hasId
    have nameTrue := (PyData.truthy_str call.2).mpr hasName
    have isId : calls.safeGet resp ["content_block", "id"] .none = .str call.1 :=
      PyData.safeGet_of_truthy id idTrue
    have isName : calls.safeGet resp ["content_block", "name"] .none = .str call.2 :=
      PyData.safeGet_of_truthy name nameTrue
    refine Returns.sseIf _ _ rfl ?_
    rw [isId, isName, idTrue, nameTrue]
    exact Client.deltaParts_header calls.timestamp calls.model hasId hasName

/-- An event without text: the start of a block, a piece of thinking or of arguments. -/
theorem claudeContent_of_others {call : Option (PyText × PyText)}
    {thinking json : PyText} (noText : Leads resp ["delta", "text"] [])
    (starts : Starts resp call) (leads : Leads resp ["delta", "thinking"] thinking)
    (leads' : Leads resp ["delta", "partial_json"] json) :
    Returns (claudeContent calls state resp) (state, state.terminalSeen)
      (startParts call ++ (({ reasoning := thinking } : Parts) ++ argumentsParts json)) := by
  have thinks : Returns (sendSseIf (PyData.str thinking).truthy calls.toBuilderCalls
      { calls.base with reasoningContent := .str thinking }) () { reasoning := thinking } := by
    refine Returns.sseIf _ _ rfl ?_
    cases thinking with
    | nil => rfl
    | cons => rfl
  have argues : Returns (sendSseIf (PyData.str json).truthy calls.toBuilderCalls
      { calls.base with functionCallContent := .str json }) () (argumentsParts json) := by
    refine Returns.sseIf _ _ rfl ?_
    cases json with
    | nil => rfl
    | cons => rfl
  rw [claudeContent, noText.safeGet, leads.safeGet, leads'.safeGet]
  exact starts.adds.bind (thinks.bind (argues.bind_pure (state, state.terminalSeen)))

/-- An event that says nothing. -/
theorem claudeContent_of_silent
    (noText : resp.follow ["delta", "text"] = none) (noThinking : resp.follow ["delta", "thinking"] = none)
    (noJson : resp.follow ["delta", "partial_json"] = none)
    (noBlock : resp.follow ["content_block", "name"] = none) :
    Returns (claudeContent calls state resp) (state, state.terminalSeen) {} :=
  @claudeContent_of_others calls resp state none [] [] (.inr ⟨noText, rfl⟩) noBlock
    (.inr ⟨noThinking, rfl⟩) (.inr ⟨noJson, rfl⟩)

/-- An event without counts that does not end the message is its content. -/
theorem claudeEvent_plain {type : String} {members : List (String × PyData)} {added : Parts}
    (plain : IsPlain (claudeEventOf type members).payload)
    (goesOn : (Utf8.points type == Utf8.points "message_stop") = false)
    (adds : Returns (claudeContent calls (known calls usage) (claudeEventOf type members).payload)
      (known calls usage, false) added) :
    Returns (claudeEvent calls (known calls usage) (claudeEventOf type members)) (known calls usage, false)
      added := by
  show Returns (claudeObject calls _ _ (claudeEventOf type members).payload) _ _
  rw [claudeObject_plain plain goesOn goesOn]
  exact adds

theorem claudeEvent_idle {event : SseEvent} (idle : event.isIdle = true) :
    Returns (claudeEvent calls (known calls usage) event) (known calls usage, false) {} := by
  obtain ⟨isComment, eventName, payload⟩ := event
  cases isComment with
  | true => exact Returns.pure _
  | false =>
    obtain ⟨named, isPing⟩ : eventName = some (Utf8.points "ping") ∧ ∃ type : PyData,
        payload = .dict [("type", type)] ∧ type.isText "ping" = true := by
      rw [SseEvent.isIdle, Bool.false_or, Bool.and_eq_true, beq_iff_eq] at idle
      refine ⟨idle.1, ?_⟩
      obtain ⟨-, isPing⟩ := idle
      dsimp only at isPing
      split at isPing
      · exact ⟨_, rfl, isPing⟩
      · cases isPing
    obtain ⟨type, rfl, isPing⟩ := isPing
    subst named
    show Returns (claudeObject calls (known calls usage) (some (Utf8.points "ping"))
        (.dict [("type", type)])) _ _
    rw [claudeObject_plain ⟨rfl, rfl⟩ (by decide)]
    · exact claudeContent_of_silent rfl rfl rfl rfl
    · show type.isText "message_stop" = false
      have isText : type.asStr = some (Utf8.points "ping") := by rwa [PyData.isText, beq_iff_eq] at isPing
      rw [PyData.isText, isText]
      decide

end Events

/-! ### Blocks -/

section Blocks

variable {calls : StreamCalls} {usage : ClaudeUsage} {codec : JsonCodec}

/-- The id and the name of a call. -/
def ClaudeBlock.call? : ClaudeBlock → Option (PyText × PyText)
  | .toolUse id name _ _ _ => some (id, name)
  | _ => none

theorem blockStart_adds (index : ℕ) (block : ClaudeBlock) :
    Returns (claudeEvent calls (known calls usage)
        (claudeEventOf "content_block_start" [("index", .int index), ("content_block", block.started)]))
      (known calls usage, false) (startParts block.call?) := by
  refine claudeEvent_plain ⟨rfl, rfl⟩ rfl ?_
  cases block with
  | text words => exact claudeContent_of_silent rfl rfl rfl rfl
  | thinking words signature => exact claudeContent_of_silent rfl rfl rfl rfl
  | toolUse id name input hasId hasName =>
    exact @claudeContent_of_others calls _ (known calls usage) (some (id, name)) [] [] (.inr ⟨rfl, rfl⟩)
      ⟨hasId, hasName, rfl, rfl⟩ (.inr ⟨rfl, rfl⟩) (.inr ⟨rfl, rfl⟩)

/-- What a piece of a block adds. -/
def pieceParts (piece : PyText) : ClaudeBlock → Parts
  | .text _ => { content := piece }
  | .thinking _ _ => { reasoning := piece }
  | .toolUse .. => argumentsParts piece

theorem blockDelta_adds (index : ℕ) (piece : PyText) (block : ClaudeBlock) :
    Returns (claudeEvent calls (known calls usage)
        (claudeEventOf "content_block_delta" [("index", .int index), ("delta", block.delta piece)]))
      (known calls usage, false) (pieceParts piece block) := by
  refine claudeEvent_plain ⟨rfl, rfl⟩ rfl ?_
  cases block with
  | text words =>
    by_cases empty : piece = []
    · subst empty
      exact @claudeContent_of_others calls _ (known calls usage) none [] [] (.inl rfl) rfl (.inr ⟨rfl, rfl⟩)
        (.inr ⟨rfl, rfl⟩)
    · exact claudeContent_of_text (.inl rfl) empty
  | thinking words signature =>
    have alone : startParts none ++ (({ reasoning := piece } : Parts) ++ argumentsParts []) =
        { reasoning := piece } := by
      show ({ reasoning := piece } : Parts) ++ ({} : Parts) = _
      exact Parts.append_nil _
    have adds := @claudeContent_of_others calls
      (claudeEventOf "content_block_delta"
        [("index", .int index), ("delta", (ClaudeBlock.thinking words signature).delta piece)]).payload
      (known calls usage) none piece [] (.inr ⟨rfl, rfl⟩) rfl (.inl rfl) (.inr ⟨rfl, rfl⟩)
    rwa [alone] at adds
  | toolUse id name input hasId hasName =>
    exact @claudeContent_of_others calls _ (known calls usage) none [] piece (.inr ⟨rfl, rfl⟩) rfl
      (.inr ⟨rfl, rfl⟩)
      (.inl rfl)

/-- What the pieces of a block add. -/
def writtenParts (pieces : List PyText) : ClaudeBlock → Parts
  | .text _ => { content := pieces.flatten }
  | .thinking _ _ => { reasoning := pieces.flatten }
  | .toolUse .. => { toolDeltas := (pieces.filter (!·.isEmpty)).map Client.argumentsDelta }

theorem writtenParts_cons (piece : PyText) (pieces : List PyText) (block : ClaudeBlock) :
    writtenParts (piece :: pieces) block = pieceParts piece block ++ writtenParts pieces block := by
  cases block with
  | text words => rfl
  | thinking words signature => rfl
  | toolUse id name input hasId hasName =>
    cases piece with
    | nil => rfl
    | cons => rfl

theorem pieces_collect (index : ℕ) (block : ClaudeBlock) (pieces : List PyText) :
    Collects (claudeEvent calls) (known calls usage)
      (pieces.map fun piece =>
        claudeEventOf "content_block_delta" [("index", .int index), ("delta", block.delta piece)])
      (writtenParts pieces block) := by
  induction pieces with
  | nil =>
    have nothing : writtenParts [] block = {} := by cases block <;> rfl
    rw [nothing]
    exact .nil
  | cons piece pieces others =>
    rw [writtenParts_cons]
    exact .cons (blockDelta_adds index piece block) others

theorem Collects.silent {σ ε : Type} {body : σ → ε → Sending (σ × Bool)} {state : σ} {events : List ε}
    (silent : ∀ event ∈ events, Returns (body state event) (state, false) {}) :
    Collects body state events {} := by
  induction events with
  | nil => exact .nil
  | cons event events others =>
    exact .cons (silent event List.mem_cons_self)
      (others fun event among => silent event (List.mem_cons_of_mem _ among))

/-- What a block adds. -/
def StreamedBlock.parts (streamed : StreamedBlock codec) : Parts :=
  startParts streamed.block.call? ++ writtenParts streamed.pieces streamed.block

theorem block_collects (index : ℕ) (streamed : StreamedBlock codec) :
    Collects (claudeEvent calls) (known calls usage)
      (ClaudeStream.blockEvents index streamed) streamed.parts := by
  have signatures : Collects (claudeEvent calls) (known calls usage) (streamed.signatures.map fun piece =>
      claudeEventOf "content_block_delta" [("index", .int index),
        ("delta", .dict [("type", lit "signature_delta"), ("signature", .str piece)])]) {} := by
    refine Collects.silent fun event among => ?_
    obtain ⟨piece, -, rfl⟩ := List.mem_map.mp among
    exact claudeEvent_plain ⟨rfl, rfl⟩ rfl (claudeContent_of_silent rfl rfl rfl rfl)
  have stop : Returns (claudeEvent calls (known calls usage)
      (claudeEventOf "content_block_stop" [("index", .int index)])) (known calls usage, false) {} :=
    claudeEvent_plain ⟨rfl, rfl⟩ rfl (claudeContent_of_silent rfl rfl rfl rfl)
  have pieces := (pieces_collect index streamed.block streamed.pieces).append
    (signatures.append (.cons stop .nil))
  have all := Collects.cons (blockStart_adds index streamed.block) pieces
  rw [ClaudeStream.blockEvents, List.append_assoc]
  rwa [show writtenParts streamed.pieces streamed.block ++ (({} : Parts) ++ (({} : Parts) ++ {})) = 
    writtenParts streamed.pieces streamed.block from Parts.append_nil _] at all

/-- What blocks add. -/
def blocksParts : List (StreamedBlock codec) → Parts
  | [] => {}
  | streamed :: others => streamed.parts ++ blocksParts others

theorem blocks_collect (index : ℕ) (blocks : List (StreamedBlock codec)) :
    Collects (claudeEvent calls) (known calls usage) (ClaudeStream.blocksEvents index blocks)
      (blocksParts blocks) := by
  induction blocks generalizing index with
  | nil => exact .nil
  | cons streamed others later => exact (block_collects index streamed).append (later (index + 1))

end Blocks

/-! ### The whole stream -/

section Whole

variable {calls : StreamCalls} {codec : JsonCodec} (stream : ClaudeStream codec)

theorem orElse_count (count : ℕ) : (PyData.int count).orElse (.int 0) = .int count := by
  by_cases zero : count = 0
  · subst zero
    rfl
  · rw [PyData.orElse, if_pos ((PyData.truthy_int count).mpr (by exact_mod_cast zero))]

theorem start_adds : Returns (claudeEvent calls {} stream.start) (known calls stream.usage, false) {} := by
  have input : keptCount calls 0 stream.start.payload "input_tokens" =
      (known calls stream.usage).inputTokens := by
    have found : calls.safeGet stream.start.payload ["message", "usage", "input_tokens"] (.int 0)
        = .int stream.usage.inputTokens := safeGet_count rfl
    have lost : calls.safeGet stream.start.payload ["usage", "input_tokens"] (.int 0) = .int 0 :=
      PyData.safeGet_of_none rfl
    rw [keptCount, found, lost, orElse_count]
    rfl
  have cached : keptCount calls 0 stream.start.payload "cache_read_input_tokens"
      = (known calls stream.usage).cacheReadInputTokens := by
    have found : calls.safeGet stream.start.payload ["message", "usage", "cache_read_input_tokens"] (.int 0)
        = .int (stream.usage.cacheReadInputTokens.getD 0 : ℕ) := by
      cases isCached : stream.usage.cacheReadInputTokens with
      | none =>
        refine PyData.safeGet_of_none ?_
        rw [ClaudeStream.start, ClaudeUsage.inputMembers, isCached]
        rfl
      | some count =>
        refine safeGet_count ?_
        rw [ClaudeStream.start, ClaudeUsage.inputMembers, isCached]
        rfl
    have lost : calls.safeGet stream.start.payload ["usage", "cache_read_input_tokens"] (.int 0) = .int 0 :=
      PyData.safeGet_of_none rfl
    rw [keptCount, found, lost, orElse_count]
    rfl
  have noOutput : calls.safeGet stream.start.payload ["usage", "output_tokens"] (.int 0) = .int 0 :=
    PyData.safeGet_of_none rfl
  show Returns (claudeObject calls {} stream.start.eventName stream.start.payload) _ _
  rw [claudeObject_of_zero (by rw [noOutput]; rfl)]
  show Returns (claudeContent calls ⟨keptCount calls 0 stream.start.payload "input_tokens",
    keptCount calls 0 stream.start.payload "cache_read_input_tokens", false⟩ stream.start.payload) _ _
  rw [input, cached]
  exact claudeContent_of_silent rfl rfl rfl rfl

/-- The counts of a usage chunk. -/
def countsOf (calls : StreamCalls) (usage : ClaudeUsage) (outputTokens : ℕ) (thinkingTokens : Option ℕ) :
    UsageCounts :=
  claudeUsage (known calls usage).inputTokens (known calls usage).cacheReadInputTokens
    (calls.coerce (.int outputTokens)) (calls.coerce (.int (thinkingTokens.getD 0 : ℕ)))

theorem messageDelta_output (count : ClaudeCount) :
    calls.safeGet (stream.messageDelta count).payload ["usage", "output_tokens"] (.int 0)
      = .int count.outputTokens := safeGet_count rfl

theorem messageDelta_thinking (count : ClaudeCount) :
    calls.safeGet (stream.messageDelta count).payload ["usage", "output_tokens_details", "thinking_tokens"]
      (.int 0) = .int (count.thinkingTokens.getD 0 : ℕ) := by
  obtain ⟨outputTokens, thinkingTokens, repeatsInput⟩ := count
  cases thinkingTokens with
  | none =>
    refine PyData.safeGet_of_none ?_
    cases repeatsInput with
    | false => rfl
    | true =>
      rw [ClaudeStream.messageDelta, ClaudeUsage.inputMembers]
      cases stream.usage.cacheReadInputTokens <;> rfl
  | some thinking => exact safeGet_count rfl

theorem messageDelta_input (count : ClaudeCount) :
    keptCount calls (known calls stream.usage).inputTokens
      (stream.messageDelta count).payload "input_tokens"
      = (known calls stream.usage).inputTokens := by
  refine keptCount_eq rfl rfl ?_
  obtain ⟨outputTokens, thinkingTokens, repeatsInput⟩ := count
  cases thinkingTokens <;> cases repeatsInput
  · exact .inl rfl
  · exact .inr rfl
  · exact .inl rfl
  · exact .inr rfl

theorem messageDelta_cached (count : ClaudeCount) :
    keptCount calls (known calls stream.usage).cacheReadInputTokens (stream.messageDelta count).payload
      "cache_read_input_tokens" = (known calls stream.usage).cacheReadInputTokens := by
  refine keptCount_eq rfl rfl ?_
  obtain ⟨outputTokens, thinkingTokens, repeatsInput⟩ := count
  rw [ClaudeStream.messageDelta, ClaudeUsage.inputMembers]
  cases repeatsInput with
  | false => cases thinkingTokens <;> exact .inl rfl
  | true =>
    cases stream.usage.cacheReadInputTokens with
    | none => cases thinkingTokens <;> exact .inl rfl
    | some cached => cases thinkingTokens <;> exact .inr rfl

theorem messageDelta_silent {count : ClaudeCount} (zero : count.outputTokens = 0) :
    Returns (claudeEvent calls (known calls stream.usage) (stream.messageDelta count))
      (known calls stream.usage, false) {} := by
  show Returns (claudeObject calls (known calls stream.usage) (stream.messageDelta count).eventName
    (stream.messageDelta count).payload) _ _
  rw [claudeObject_of_zero (by rw [messageDelta_output, coerce_eq_zero]; exact zero), messageDelta_input,
    messageDelta_cached]
  exact claudeContent_of_silent rfl rfl rfl rfl

/-- A `message_delta` with output tokens is the last event that is read. -/
theorem messageDelta_counts {count : ClaudeCount} (counted : count.outputTokens ≠ 0)
    (isUsage : ∀ counts, calls.buildOpenaiUsage counts ≠ .none) :
    Returns (claudeEvent calls (known calls stream.usage) (stream.messageDelta count))
      ({ known calls stream.usage with terminalSeen := true }, true)
      { usages := [calls.buildOpenaiUsage
        (countsOf calls stream.usage count.outputTokens count.thinkingTokens)] } := by
  have output : calls.coerce (calls.safeGet (stream.messageDelta count).payload ["usage", "output_tokens"]
      (.int 0)) = calls.coerce (.int count.outputTokens) := by rw [messageDelta_output]
  have nonzero : calls.coerce (.int count.outputTokens) ≠ 0 :=
      fun zero => counted ((coerce_eq_zero _).mp zero)
  have total : (countsOf calls stream.usage count.outputTokens count.thinkingTokens).totalTokens ≠ 0 := by
    have positive := @coerce_nonneg calls (.int count.outputTokens)
    have input := @coerce_nonneg calls (.int stream.usage.inputTokens)
    show calls.coerce (.int stream.usage.inputTokens) + calls.coerce (.int count.outputTokens) ≠ 0
    omega
  have isSent := partsOf_usage calls.toBuilderCalls { calls.base with
    counts := countsOf calls stream.usage count.outputTokens count.thinkingTokens } total (isUsage _)
  show Returns (claudeObject calls (known calls stream.usage) (stream.messageDelta count).eventName
    (stream.messageDelta count).payload) _ _
  rw [claudeObject, output, if_pos nonzero, messageDelta_input, messageDelta_cached, messageDelta_thinking]
  exact Returns.bind_pure (fun sent => ⟨_, sendSse_apply _ _ sent, isSent⟩) _

theorem messageStop_adds (usage : ClaudeUsage) :
    Returns (claudeEvent calls (known calls usage) (claudeEventOf "message_stop" []))
      ({ known calls usage with terminalSeen := true }, true) {} := by
  have silent : Returns (claudeContent calls { known calls usage with terminalSeen := true }
      (claudeEventOf "message_stop" []).payload)
        ({ known calls usage with terminalSeen := true }, true) {} :=
    claudeContent_of_silent rfl rfl rfl rfl
  have input : keptCount calls (known calls usage).inputTokens (claudeEventOf "message_stop" []).payload
      "input_tokens" = (known calls usage).inputTokens := keptCount_eq rfl rfl (.inl rfl)
  have cached : keptCount calls (known calls usage).cacheReadInputTokens
      (claudeEventOf "message_stop" []).payload "cache_read_input_tokens"
      = (known calls usage).cacheReadInputTokens := keptCount_eq rfl rfl (.inl rfl)
  have noOutput : calls.safeGet (claudeEventOf "message_stop" []).payload
      ["usage", "output_tokens"] (.int 0)
      = .int 0 := PyData.safeGet_of_none rfl
  show Returns (claudeObject calls (known calls usage) (claudeEventOf "message_stop" []).eventName
    (claudeEventOf "message_stop" []).payload) _ _
  rw [claudeObject_of_zero (by rw [noOutput]; rfl), input, cached]
  exact silent

/-- The count that ends the stream: the first one with output tokens. -/
def ClaudeStream.endingCount : Option ClaudeCount := stream.counts.find? (·.outputTokens != 0)

/-- The usage that is sent. -/
def sentUsage (calls : StreamCalls) : List PyData :=
  (stream.endingCount.map fun count =>
    calls.buildOpenaiUsage (countsOf calls stream.usage count.outputTokens count.thinkingTokens)).toList

/-- The events behind the blocks end the loop. -/
theorem counts_end (isUsage : ∀ counts, calls.buildOpenaiUsage counts ≠ .none) {events : List SseEvent}
    (sends : events.filter (!·.isIdle)
      = stream.counts.map stream.messageDelta ++ [claudeEventOf "message_stop" []]) (sent : List Sent) :
    ∃ items, loop (claudeEvent calls) (known calls stream.usage) events sent
        = (.ok { known calls stream.usage with terminalSeen := true }, sent ++ items) ∧
      partsOf items = { usages := sentUsage stream calls } := by
  have idle : ∀ event : SseEvent, (!event.isIdle) = false →
      Returns (claudeEvent calls (known calls stream.usage) event) (known calls stream.usage, false) {} :=
    fun event isIdle => claudeEvent_idle (by rwa [Bool.not_eq_false'] at isIdle)
  have silent : ∀ counts : List ClaudeCount, (∀ count ∈ counts, count.outputTokens = 0) →
      Collects (claudeEvent calls) (known calls stream.usage) (counts.map stream.messageDelta) {} := by
    intro counts zeros
    refine Collects.silent fun event among => ?_
    obtain ⟨count, isCount, rfl⟩ := List.mem_map.mp among
    exact messageDelta_silent stream (zeros count isCount)
  cases ends : stream.endingCount with
  | none =>
    have zeros : ∀ count ∈ stream.counts, count.outputTokens = 0 := fun count isCount => by
      simpa using List.find?_eq_none.mp ends count isCount
    rw [sentUsage, ends]
    exact Collects.leaves idle sends (silent _ zeros) (messageStop_adds stream.usage) sent
  | some count =>
    obtain ⟨counted, before, behind, counts, zeros⟩ := List.find?_eq_some_iff_append.mp ends
    rw [counts, List.map_append, List.append_assoc, List.map_cons, List.cons_append] at sends
    rw [sentUsage, ends]
    have counted' : count.outputTokens ≠ 0 := by simpa using counted
    exact Collects.leaves idle sends (silent _ fun count isCount => by simpa using zeros count isCount)
      (messageDelta_counts stream counted' isUsage) sent

/-- **What the stream of a message sends.** -/
theorem fetch_sends (isUsage : ∀ counts, calls.buildOpenaiUsage counts ≠ .none) {events : List SseEvent}
    (sends : events.filter (!·.isIdle) = stream.events) :
    ∃ sent, fetchClaudeResponseStream calls events [] = (.ok (), sent) ∧
      partsOf sent = blocksParts stream.blocks ++ { usages := sentUsage stream calls } := by
  have idle : ∀ usage : ClaudeUsage, ∀ event : SseEvent, (!event.isIdle) = false →
      Returns (claudeEvent calls (known calls usage) event) (known calls usage, false) {} :=
    fun usage event isIdle => claudeEvent_idle (by rwa [Bool.not_eq_false'] at isIdle)
  obtain ⟨before, others, rfl, before_, -, others_⟩ := List.filter_eq_cons_iff.mp sends
  obtain ⟨blocks, counts, rfl, blocks_, counts_⟩ := List.filter_eq_append_iff.mp others_
  have skips : before.filter (!·.isIdle) = [] :=
    List.filter_eq_nil_iff.mpr fun event among => before_ event among
  have begins := (show Collects (claudeEvent calls) {} (before.filter (!·.isIdle)) {} by
    rw [skips]; exact .nil).continues (idle ⟨0, none, 0, none⟩)
  have collects := (show Collects (claudeEvent calls) (known calls stream.usage)
    (blocks.filter (!·.isIdle)) (blocksParts stream.blocks) by
      rw [blocks_]; exact blocks_collect 0 stream.blocks).continues (idle stream.usage)
  have goesOn := begins.append ((start_adds stream).continues.append collects)
  obtain ⟨items, runs, parts⟩ := goesOn counts []
  obtain ⟨items', runs', parts'⟩ := counts_end stream isUsage counts_ ([] ++ items)
  refine ⟨items ++ items' ++ [.done], ?_, ?_⟩
  · have whole : loop (claudeEvent calls) {} (before ++ stream.start :: (blocks ++ counts)) []
        = (.ok { known calls stream.usage with terminalSeen := true }, items ++ items') := by
      rw [show before ++ stream.start :: (blocks ++ counts) = before ++ ([stream.start] ++ blocks)
        ++ counts by
        simp]
      exact runs.trans runs'
    rw [fetchClaudeResponseStream, Raise.bind_apply, whole]
    rfl
  · rw [partsOf_append, partsOf_append, parts, parts']
    exact Parts.append_nil _

end Whole

/-! ### The whole message -/

section Message

variable {calls : StreamCalls} (stream : ClaudeStream calls.json)

/-- The counts of the message. -/
def ClaudeStream.finalCounts : UsageCounts :=
  countsOf calls stream.usage stream.usage.outputTokens stream.usage.thinkingTokens

/-- The usage of the completion. -/
def ClaudeStream.messageUsage : Option PyData :=
  if stream.finalCounts.totalTokens ≠ 0 then some (calls.buildOpenaiUsage stream.finalCounts) else none

/-- The arguments of the builder for the message. -/
def ClaudeStream.arguments : BuilderArguments :=
  { calls.base with
    content := calls.safeGet stream.message ["content", 0, "text"] .none
    toolsId := calls.safeGet stream.message ["content", 1, "id"] .none
    functionCallName := calls.safeGet stream.message ["content", 1, "name"] .none
    functionCallContent := calls.safeGet stream.message ["content", 1, "input"] .none
    role := calls.safeGet stream.message ["role"] .none
    counts := stream.finalCounts }

theorem yield_eq : yieldClaudeChatCompletion calls stream.message
    = generateNoStreamResponse calls.toBuilderCalls stream.arguments := by
  have input : calls.safeGet stream.message ["usage", "input_tokens"] (.int 0)
      = .int stream.usage.inputTokens :=
    safeGet_count rfl
  have cached : calls.safeGet stream.message ["usage", "cache_read_input_tokens"] (.int 0)
      = .int (stream.usage.cacheReadInputTokens.getD 0 : ℕ) := by
    rw [ClaudeStream.message, ClaudeUsage.inputMembers, ClaudeUsage.outputMembers]
    cases stream.usage.cacheReadInputTokens with
    | none => cases stream.usage.thinkingTokens <;> exact PyData.safeGet_of_none rfl
    | some count => exact safeGet_count rfl
  have output : calls.safeGet stream.message ["usage", "output_tokens"] (.int 0)
      = .int stream.usage.outputTokens := by
    rw [ClaudeStream.message, ClaudeUsage.inputMembers]
    cases stream.usage.cacheReadInputTokens <;> exact safeGet_count rfl
  have thinking : calls.safeGet stream.message
      ["usage", "output_tokens_details", "thinking_tokens"] (.int 0)
      = .int (stream.usage.thinkingTokens.getD 0 : ℕ) := by
    rw [ClaudeStream.message, ClaudeUsage.inputMembers, ClaudeUsage.outputMembers]
    cases stream.usage.thinkingTokens with
    | none => cases stream.usage.cacheReadInputTokens <;> exact PyData.safeGet_of_none rfl
    | some count => cases stream.usage.cacheReadInputTokens <;> exact safeGet_count rfl
  have same : claudeUsage (calls.coerce (calls.safeGet stream.message ["usage", "input_tokens"] (.int 0)))
      (calls.coerce (calls.safeGet stream.message ["usage", "cache_read_input_tokens"] (.int 0)))
      (calls.coerce (calls.safeGet stream.message ["usage", "output_tokens"] (.int 0)))
      (calls.coerce (calls.safeGet stream.message
        ["usage", "output_tokens_details", "thinking_tokens"] (.int 0)))
      = stream.finalCounts := by
    rw [input, cached, output, thinking]
    rfl
  rw [ClaudeStream.arguments, ← same]
  rfl

/-- The content of the completion, if it has no call: the text of the first block. -/
theorem arguments_content :
    stream.arguments.content.text = (stream.blocks.head?.map (·.block.textPart)).getD [] := by
  have path : stream.message.follow ["content", 0, "text"]
      = (PyData.list (stream.blocks.map (·.block.json))).follow [0, "text"] := rfl
  refine Leads.text ?_
  rw [Leads, path]
  cases stream.blocks with
  | nil => exact .inr ⟨rfl, rfl⟩
  | cons first others =>
    obtain ⟨block, pieces, signatures, spells⟩ := first
    cases block with
    | text words => exact .inl rfl
    | thinking words signature => exact .inr ⟨rfl, rfl⟩
    | toolUse id name input hasId hasName => exact .inr ⟨rfl, rfl⟩

theorem arguments_noCall (noCall : ∀ second, stream.blocks[1]? = some second → second.block.call? = none) :
    stream.arguments.functionCallName.truthy = false := by
  have path : stream.message.follow ["content", 1, "name"]
      = (stream.blocks.map (·.block.json))[1]?.bind (·.follow ["name"]) := rfl
  have lost : stream.message.follow ["content", 1, "name"] = none := by
    rw [path, List.getElem?_map]
    cases isSecond : stream.blocks[1]? with
    | none => rfl
    | some second =>
      have isNone := noCall second isSecond
      obtain ⟨block, pieces, signatures, spells⟩ := second
      cases block with
      | text words => rfl
      | thinking words signature => rfl
      | toolUse id name input hasId hasName => cases isNone
  show (calls.safeGet stream.message ["content", 1, "name"] .none).truthy = false
  rw [StreamCalls.safeGet, PyData.safeGet_of_none lost]
  rfl

/-- A second block that is a call gives its id, its name and its input. -/
theorem arguments_call {first second : StreamedBlock calls.json} {others : List (StreamedBlock calls.json)}
    {id name : PyText} {input : List (String × PyData)} {hasId : id ≠ []} {hasName : name ≠ []}
    (blocks : stream.blocks = first :: second :: others)
    (isCall : second.block = .toolUse id name input hasId hasName) :
    stream.arguments.toolsId = .str id ∧ stream.arguments.functionCallName = .str name ∧
      stream.arguments.functionCallContent = givenDict calls input := by
  have path : ∀ keys, stream.message.follow ("content" :: 1 :: keys) = second.block.json.follow keys := by
    intro keys
    show (stream.blocks.map (·.block.json))[1]?.bind (·.follow keys) = _
    rw [blocks]
    rfl
  refine ⟨?_, ?_, ?_⟩
  · exact PyData.safeGet_of_truthy (by rw [path, isCall]; rfl) ((PyData.truthy_str id).mpr hasId)
  · exact PyData.safeGet_of_truthy (by rw [path, isCall]; rfl) ((PyData.truthy_str name).mpr hasName)
  · have found : stream.message.follow ["content", 1, "input"] = some (.dict input) := by
      rw [path, isCall]
      rfl
    exact safeGet_dict found

end Message

/-! ### The two answers -/

section Answers

variable {calls : StreamCalls}

/-- A call with its arguments as a JSON value. -/
def callView (json : JsonCodec) (call : ToolCall) : PyText × PyText × Option PyData :=
  (call.id, call.name, json.loads call.arguments)

variable (stream : ClaudeStream calls.json)

/-- The text is in the first block, and there is no call. -/
def ClaudeStream.TextFirst : Prop :=
  (∀ streamed ∈ stream.blocks, streamed.block.call? = none)
    ∧ ∀ streamed ∈ stream.blocks.tail, streamed.block.textPart = []

/-- The second block is the only call, and no block has a text. The arguments of the call have pieces, and
`safe_get` gives them. -/
def ClaudeStream.CallSecond : Prop :=
  ∃ first second others, stream.blocks = first :: second :: others
    ∧ (∀ streamed ∈ first :: others, streamed.block.call? = none ∧ streamed.block.textPart = [])
    ∧ second.block.call? ≠ none ∧ second.pieces.flatten ≠ []
    ∧ (calls.keepsFalsy ∨ second.block.input? ≠ some [])

/-- The first `message_delta` with output tokens has the counts of the message. Without one the message has
no tokens. -/
def ClaudeStream.CountsOnce : Prop :=
  match stream.endingCount with
  | some count => calls.coerce (.int count.outputTokens) = calls.coerce (.int stream.usage.outputTokens)
      ∧ calls.coerce (.int (count.thinkingTokens.getD 0 : ℕ))
        = calls.coerce (.int (stream.usage.thinkingTokens.getD 0 : ℕ))
  | none => stream.usage.inputTokens = 0

theorem usage_same (injective : Function.Injective calls.buildOpenaiUsage) :
    (sentUsage stream calls).getLast? = stream.messageUsage ↔ stream.CountsOnce := by
  have total : stream.finalCounts.totalTokens = calls.coerce (.int stream.usage.inputTokens)
      + calls.coerce (.int stream.usage.outputTokens) := rfl
  have input := @coerce_nonneg calls (.int stream.usage.inputTokens)
  have output := @coerce_nonneg calls (.int stream.usage.outputTokens)
  cases ends : stream.endingCount with
  | none =>
    have noOutput : stream.usage.outputTokens = 0 := by
      have all := List.find?_eq_none.mp ends _ (List.mem_append_right _ (List.mem_singleton_self _))
      simpa using all
    have once : stream.CountsOnce ↔ stream.usage.inputTokens = 0 := by
      rw [ClaudeStream.CountsOnce, ends]
    rw [once, sentUsage, ends, ClaudeStream.messageUsage, total, noOutput]
    show none = (if calls.coerce (.int stream.usage.inputTokens) + 0 ≠ 0 then _ else none) ↔ _
    rw [Int.add_zero, ← @coerce_eq_zero calls stream.usage.inputTokens]
    by_cases zero : calls.coerce (.int stream.usage.inputTokens) = 0
    · exact iff_of_true (if_neg (not_not.mpr zero)).symm zero
    · refine iff_of_false (fun same => ?_) zero
      rw [if_pos zero] at same
      cases same
  | some count =>
    have once : stream.CountsOnce ↔ calls.coerce (.int count.outputTokens)
        = calls.coerce (.int stream.usage.outputTokens) ∧ calls.coerce
          (.int (count.thinkingTokens.getD 0 : ℕ))
          = calls.coerce (.int (stream.usage.thinkingTokens.getD 0 : ℕ)) := by
      rw [ClaudeStream.CountsOnce, ends]
    have counted : calls.coerce (.int count.outputTokens) ≠ 0 := by
      have nonzero := List.find?_some ends
      rw [Ne, coerce_eq_zero]
      simpa using nonzero
    rw [once, sentUsage, ends, ClaudeStream.messageUsage]
    constructor
    · intro same
      by_cases counts : stream.finalCounts.totalTokens ≠ 0
      · rw [if_pos counts] at same
        have sameCounts := injective (Option.some.inj same)
        exact ⟨congrArg UsageCounts.completionTokens sameCounts,
          congrArg UsageCounts.reasoningTokens sameCounts⟩
      · rw [if_neg counts] at same
        cases same
    · rintro ⟨sameOutput, sameThinking⟩
      have sameCounts : countsOf calls stream.usage count.outputTokens count.thinkingTokens
          = stream.finalCounts := by
        rw [ClaudeStream.finalCounts, countsOf, countsOf, sameOutput, sameThinking]
      rw [sameOutput] at counted
      rw [if_pos (by omega), ← sameCounts]
      rfl

/-- The deltas of the calls of a block. -/
def StreamedBlock.toolDeltas (streamed : StreamedBlock calls.json) : List PyData :=
  match streamed.block with
  | .toolUse id name _ _ _ =>
    Client.headerDelta id name :: (streamed.pieces.filter (!·.isEmpty)).map Client.argumentsDelta
  | _ => []

theorem block_parts (streamed : StreamedBlock calls.json) : streamed.parts
    = { content := streamed.block.textPart, reasoning := streamed.block.thinkingPart,
        toolDeltas := streamed.toolDeltas } := by
  obtain ⟨block, pieces, signatures, spells⟩ := streamed
  cases block with
  | text words =>
    obtain ⟨rfl, -⟩ := spells
    rfl
  | thinking words signature =>
    obtain ⟨rfl, -⟩ := spells
    rfl
  | toolUse id name input hasId hasName => rfl

theorem blocks_parts (blocks : List (StreamedBlock calls.json)) : blocksParts blocks
    = { content := blocks.flatMap (·.block.textPart), reasoning := blocks.flatMap (·.block.thinkingPart),
        toolDeltas := blocks.flatMap StreamedBlock.toolDeltas } := by
  induction blocks with
  | nil => rfl
  | cons first others ih =>
    rw [blocksParts, ih, block_parts]
    rfl

theorem toolDeltas_of_noCall {streamed : StreamedBlock calls.json} :
    streamed.toolDeltas = [] ↔ streamed.block.call? = none := by
  obtain ⟨block, pieces, signatures, spells⟩ := streamed
  cases block with
  | text words => exact iff_of_true rfl rfl
  | thinking words signature => exact iff_of_true rfl rfl
  | toolUse id name input hasId hasName =>
    exact iff_of_false (fun isNil => nomatch isNil) fun isNone => nomatch isNone

theorem indexOf_toolDeltas {streamed : StreamedBlock calls.json} {delta : PyData}
    (among : delta ∈ streamed.toolDeltas) : Client.indexOf delta = 0 := by
  obtain ⟨block, pieces, signatures, spells⟩ := streamed
  cases block with
  | text words => cases among
  | thinking words signature => cases among
  | toolUse id name input hasId hasName =>
    rcases List.mem_cons.mp among with rfl | among
    · rfl
    · obtain ⟨piece, -, rfl⟩ := List.mem_map.mp among
      rfl

/-- The deltas of a call are the call. -/
theorem joined_of_call {streamed : StreamedBlock calls.json} {id name : PyText}
    {input : List (String × PyData)}
    {hasId : id ≠ []} {hasName : name ≠ []} (isCall : streamed.block
      = .toolUse id name input hasId hasName) :
    Client.joined streamed.toolDeltas = ⟨id, name, streamed.pieces.flatten⟩ := by
  rw [StreamedBlock.toolDeltas, isCall]
  show Client.joined (Client.headerDelta id name :: _) = _
  rw [Client.joined_call, List.flatten_filter_not_isEmpty]

theorem call_of_id {streamed : StreamedBlock calls.json}
    (noId : (Client.joined streamed.toolDeltas).id = []) :
    streamed.block.call? = none := by
  cases isBlock : streamed.block with
  | text words => rfl
  | thinking words signature => rfl
  | toolUse id name input hasId hasName =>
    rw [joined_of_call isBlock] at noId
    exact absurd noId hasId

theorem calls_of_id {blocks : List (StreamedBlock calls.json)}
    (noId : (Client.joined (blocks.flatMap StreamedBlock.toolDeltas)).id = []) :
    ∀ streamed ∈ blocks, streamed.block.call? = none := by
  induction blocks with
  | nil => exact fun _ among => nomatch among
  | cons first others ih =>
    rw [List.flatMap_cons, Client.joined_append] at noId
    obtain ⟨firstId, otherIds⟩ := List.append_eq_nil_iff.mp noId
    intro streamed among
    rcases List.mem_cons.mp among with rfl | among
    · exact call_of_id firstId
    · exact ih otherIds streamed among

theorem deltas_nil (blocks : List (StreamedBlock calls.json)) :
    blocks.flatMap StreamedBlock.toolDeltas = [] ↔ ∀ streamed ∈ blocks, streamed.block.call? = none := by
  rw [List.flatMap_eq_nil_iff]
  exact forall₂_congr fun streamed _ => toolDeltas_of_noCall

theorem gathered_blocks (blocks : List (StreamedBlock calls.json))
    (some_ : blocks.flatMap StreamedBlock.toolDeltas ≠ []) :
    Client.gathered (blocks.flatMap StreamedBlock.toolDeltas)
      = [Client.joined (blocks.flatMap StreamedBlock.toolDeltas)] := by
  refine Client.gathered_of_zero (fun delta among => ?_) some_
  obtain ⟨streamed, -, isDelta⟩ := List.mem_flatMap.mp among
  exact indexOf_toolDeltas isDelta

/-- The input of a call, read from what the completion writes. -/
theorem loads_given {written signature : PyText} {id name : PyText} {input : List (String × PyData)}
    {hasId : id ≠ []} {hasName : name ≠ []}
    (spells : (ClaudeBlock.toolUse id name input hasId hasName).Spells calls.json written signature) :
    calls.json.loads written = calls.json.loads (calls.json.dumps (givenDict calls input))
      ↔ written ≠ [] ∧ (calls.keepsFalsy ∨ some input ≠ some []) := by
  have dict : ∃ text, calls.json.loads text = some (.dict input) := by
    rcases spells.1 with reads | ⟨-, rfl⟩
    · exact ⟨written, reads⟩
    · exact ⟨_, calls.json.loads_braces⟩
  obtain ⟨text, readsText⟩ := dict
  by_cases given : calls.keepsFalsy ∨ input ≠ []
  · have given' : calls.keepsFalsy ∨ some input ≠ some [] := by simpa using given
    rw [givenDict, if_pos given, calls.json.loads_dumps text _ readsText]
    rcases spells.1 with reads | ⟨rfl, -⟩
    · refine iff_of_true reads ⟨fun empty => ?_, given'⟩
      rw [empty, calls.json.loads_nil] at reads
      cases reads
    · rw [calls.json.loads_nil]
      exact iff_of_false (Option.some_ne_none _).symm fun both => both.1 rfl
  · have given' : ¬ (calls.keepsFalsy ∨ some input ≠ some []) := by simpa using given
    refine iff_of_false (fun same => ?_) fun both => given' both.2
    rw [givenDict, if_neg given, calls.json.loads_dumps _ _ calls.json.loads_null] at same
    rcases spells.1 with reads | ⟨rfl, -⟩
    · rw [reads] at same
      cases same
    · rw [calls.json.loads_nil] at same
      cases same

/-- The calls of the two answers, where the second block is no call. -/
theorem toolCalls_of_noCall {α : Type} (view : ToolCall → α) :
    (Client.gathered (stream.blocks.flatMap StreamedBlock.toolDeltas)).map view = [] ↔
      ∀ streamed ∈ stream.blocks, streamed.block.call? = none := by
  rw [← deltas_nil]
  constructor
  · intro isNil
    by_contra some_
    rw [gathered_blocks _ some_] at isNil
    cases isNil
  · intro isNil
    rw [isNil]
    rfl

/-- The calls of the two answers, where the second block is a call. -/
theorem toolCalls_of_call {first second : StreamedBlock calls.json}
    {others : List (StreamedBlock calls.json)}
    {id name : PyText} {input : List (String × PyData)} {hasId : id ≠ []} {hasName : name ≠ []}
    (isCall : second.block = .toolUse id name input hasId hasName) :
    (Client.gathered ((first :: second :: others).flatMap StreamedBlock.toolDeltas)).map
          (callView calls.json)
        = [(id, name, calls.json.loads (calls.json.dumps (givenDict calls input)))] ↔
      (∀ streamed ∈ first :: others, streamed.block.call? = none) ∧ second.pieces.flatten ≠ []
        ∧ (calls.keepsFalsy ∨ second.block.input? ≠ some []) := by
  have spells := second.spells
  rw [isCall] at spells
  have given := loads_given spells
  have some_ : (first :: second :: others).flatMap StreamedBlock.toolDeltas ≠ [] := by
    rw [Ne, deltas_nil]
    intro none_
    have noCall := none_ second (List.mem_cons_of_mem _ List.mem_cons_self)
    rw [isCall] at noCall
    cases noCall
  have apart : Client.joined ((first :: second :: others).flatMap StreamedBlock.toolDeltas)
      = ⟨(Client.joined first.toolDeltas).id ++
        (id ++ (Client.joined (others.flatMap StreamedBlock.toolDeltas)).id),
        (Client.joined first.toolDeltas).name
          ++ (name ++ (Client.joined (others.flatMap StreamedBlock.toolDeltas)).name),
        (Client.joined first.toolDeltas).arguments ++ (second.pieces.flatten
          ++ (Client.joined (others.flatMap StreamedBlock.toolDeltas)).arguments)⟩ := by
    rw [List.flatMap_cons, List.flatMap_cons, Client.joined_append, Client.joined_append,
      joined_of_call isCall]
  have alone : (∀ streamed ∈ first :: others, streamed.block.call? = none) →
      Client.joined ((first :: second :: others).flatMap StreamedBlock.toolDeltas)
        = ⟨id, name, second.pieces.flatten⟩ := by
    intro none_
    have firstNone := toolDeltas_of_noCall.mpr (none_ first List.mem_cons_self)
    have othersNone := (deltas_nil others).mpr fun streamed among =>
      none_ streamed (List.mem_cons_of_mem _ among)
    rw [apart, firstNone, othersNone]
    show ToolCall.mk (id ++ []) (name ++ []) (second.pieces.flatten ++ []) = _
    simp only [List.append_nil]
  rw [gathered_blocks _ some_, List.map_singleton, isCall]
  constructor
  · intro same
    have same' := List.singleton_inj.mp same
    have none_ : ∀ streamed ∈ first :: others, streamed.block.call? = none := by
      have ids := congrArg (fun view => view.1.length) same'
      rw [apart] at ids
      simp only [callView, List.length_append] at ids
      intro streamed among
      rcases List.mem_cons.mp among with rfl | among
      · exact call_of_id (List.length_eq_zero_iff.mp (by omega))
      · exact calls_of_id (List.length_eq_zero_iff.mp (by omega)) streamed among
    rw [alone none_] at same'
    exact ⟨none_, given.mp (congrArg (fun view => view.2.2) same')⟩
  · rintro ⟨none_, some_⟩
    rw [alone none_, callView, given.mpr some_]

theorem second_cases (blocks : List (StreamedBlock calls.json)) :
    (∀ second, blocks[1]? = some second → second.block.call? = none) ∨
      ∃ first second others, blocks = first :: second :: others ∧ ∃ id name input hasId hasName,
        second.block = .toolUse id name input hasId hasName := by
  cases blocks with
  | nil => exact .inl fun _ found => nomatch found
  | cons first others =>
    cases others with
    | nil => exact .inl fun _ found => nomatch found
    | cons second others =>
      cases isBlock : second.block with
      | text words => exact .inl fun _ found => by obtain rfl := Option.some.inj found; rw [isBlock]; rfl
      | thinking words signature =>
        exact .inl fun _ found => by obtain rfl := Option.some.inj found; rw [isBlock]; rfl
      | toolUse id name input hasId hasName =>
        exact .inr ⟨first, second, others, rfl, id, name, input, hasId, hasName, isBlock⟩

theorem text_of_first (blocks : List (StreamedBlock calls.json)) :
    blocks.flatMap (·.block.textPart) = (blocks.head?.map (·.block.textPart)).getD [] ↔
      ∀ streamed ∈ blocks.tail, streamed.block.textPart = [] := by
  cases blocks with
  | nil => exact iff_of_true rfl fun _ among => nomatch among
  | cons first others =>
    rw [List.tail_cons, ← List.flatMap_eq_nil_iff, List.flatMap_cons]
    exact List.append_right_eq_self

/-- **A client has the same answer of the stream and of the whole message exactly when** no thinking has a
text, the text is in the first block of a message without a call or there is no text and the second block is
the only call, and the first count of output tokens is the final one. -/
theorem claude_answers_agree_iff (isUsage : ∀ counts, calls.buildOpenaiUsage counts ≠ .none)
    (injective : Function.Injective calls.buildOpenaiUsage) {events : List SseEvent}
    (sends : events.filter (!·.isIdle) = stream.events) :
    (∃ sent, fetchClaudeResponseStream calls events [] = (.ok (), sent) ∧
        SameAnswer (callView calls.json) (Client.reassemble (chunksOf sent))
          (Client.read (yieldClaudeChatCompletion calls stream.message))) ↔
      (∀ streamed ∈ stream.blocks, streamed.block.thinkingPart = [])
        ∧ (stream.TextFirst ∨ stream.CallSecond) ∧ stream.CountsOnce := by
  obtain ⟨sent, runs, parts⟩ := fetch_sends stream isUsage sends
  rw [blocks_parts] at parts
  have streamed : Client.reassemble (chunksOf sent)
      = { content := stream.blocks.flatMap (·.block.textPart), reasoning :=
        stream.blocks.flatMap (·.block.thinkingPart),
          toolCalls := Client.gathered (stream.blocks.flatMap StreamedBlock.toolDeltas),
          usage := (sentUsage stream calls).getLast? } := by
    rw [Client.reassemble_eq, show Client.parts (chunksOf sent) = _ from parts]
    show Client.Parts.answer ⟨_ ++ [], _ ++ [], _ ++ [], [] ++ _⟩ = _
    simp only [List.append_nil, List.nil_append]
    rfl
  have agree : (∃ sent, fetchClaudeResponseStream calls events [] = (.ok (), sent) ∧
      SameAnswer (callView calls.json) (Client.reassemble (chunksOf sent))
        (Client.read (yieldClaudeChatCompletion calls stream.message))) ↔
      SameAnswer (callView calls.json) (Client.reassemble (chunksOf sent))
        (Client.read (generateNoStreamResponse calls.toBuilderCalls stream.arguments)) := by
    rw [yield_eq]
    refine ⟨?_, fun same => ⟨sent, runs, same⟩⟩
    rintro ⟨sent', runs', same⟩
    obtain rfl : sent = sent' := congrArg Prod.snd (runs.symm.trans runs')
    exact same
  have usage := usage_same stream injective
  rw [agree, streamed]
  rcases second_cases stream.blocks with noCall |
    ⟨first, second, others, blocks, id, name, input, hasId, hasName, isCall⟩
  · have impossible : ¬ stream.CallSecond := by
      rintro ⟨first, second, others, blocks, -, isCall, -⟩
      exact isCall (noCall second (by rw [blocks]; rfl))
    rw [Client.read_message calls.toBuilderCalls _ (isUsage _) (arguments_noCall stream noCall),
      arguments_content]
    constructor
    · rintro ⟨content, reasoning, toolCalls, sameUsage⟩
      exact ⟨List.flatMap_eq_nil_iff.mp reasoning,
        .inl ⟨(toolCalls_of_noCall stream _).mp toolCalls, (text_of_first _).mp content⟩,
          usage.mp sameUsage⟩
    · rintro ⟨noThinking, form, counts⟩
      obtain ⟨none_, later⟩ := form.resolve_right impossible
      exact ⟨(text_of_first _).mpr later, List.flatMap_eq_nil_iff.mpr noThinking,
        (toolCalls_of_noCall stream _).mpr none_, usage.mpr counts⟩
  · have impossible : ¬ stream.TextFirst := by
      rintro ⟨none_, -⟩
      have noCall := none_ second (by rw [blocks]; exact List.mem_cons_of_mem _ List.mem_cons_self)
      rw [isCall] at noCall
      cases noCall
    obtain ⟨toolsId, functionCallName, content⟩ := arguments_call stream blocks isCall
    have named : stream.arguments.functionCallName.truthy = true := by
      rw [functionCallName]
      exact (PyData.truthy_str name).mpr hasName
    have calls_ := @toolCalls_of_call calls first second others id name input hasId hasName isCall
    rw [Client.read_call calls.toBuilderCalls _ (isUsage _) named, toolsId, functionCallName, content,
      if_pos ((PyData.truthy_str id).mpr hasId)]
    have among : ∀ streamed ∈ first :: others, streamed ∈ stream.blocks := by
      intro streamed isOther
      rw [blocks]
      exact List.mem_cons.mpr ((List.mem_cons.mp isOther).imp_right (List.mem_cons_of_mem second))
    constructor
    · rintro ⟨noText, reasoning, toolCalls, sameUsage⟩
      have noText' := List.flatMap_eq_nil_iff.mp noText
      rw [blocks] at toolCalls
      obtain ⟨none_, some_, given⟩ := calls_.mp toolCalls
      refine ⟨List.flatMap_eq_nil_iff.mp reasoning, .inr
        ⟨first, second, others, blocks, ?_, ?_, some_, given⟩,
        usage.mp sameUsage⟩
      · exact fun streamed isOther => ⟨none_ streamed isOther, noText' streamed (among streamed isOther)⟩
      · rw [isCall]
        exact Option.some_ne_none _
    · rintro ⟨noThinking, form, counts⟩
      obtain ⟨first', second', others', blocks', none_, -, some_, given⟩ := form.resolve_left impossible
      obtain ⟨rfl, same⟩ := List.cons_eq_cons.mp (blocks.symm.trans blocks')
      obtain ⟨rfl, rfl⟩ := List.cons_eq_cons.mp same
      refine ⟨?_, List.flatMap_eq_nil_iff.mpr noThinking, ?_, usage.mpr counts⟩
      · refine List.flatMap_eq_nil_iff.mpr fun streamed isBlock => ?_
        rw [blocks] at isBlock
        rcases List.mem_cons.mp isBlock with rfl | isBlock
        · exact (none_ streamed List.mem_cons_self).2
        · rcases List.mem_cons.mp isBlock with rfl | isBlock
          · rw [isCall]
            rfl
          · exact (none_ streamed (List.mem_cons_of_mem _ isBlock)).2
      · rw [blocks]
        exact calls_.mpr ⟨fun streamed isOther => (none_ streamed isOther).1, some_, given⟩

/-- A message with one text, sent in two pieces with a `ping` between them. -/
def textStream : ClaudeStream plainCalls.json where
  id := Utf8.points "msg"
  model := Utf8.points "claude"
  stopReason := Utf8.points "end_turn"
  blocks := [⟨.text (Utf8.points "ab"), [Utf8.points "a", Utf8.points "b"], [], rfl, rfl⟩]
  usage := ⟨1, none, 2, none⟩
  firstOutputTokens := 1
  earlier := []
  lastRepeats := false

theorem claude_answers_agree_iff_text :
    ∃ sent, fetchClaudeResponseStream plainCalls textStream.events [] = (.ok (), sent) ∧
      SameAnswer (callView plainCalls.json) (Client.reassemble (chunksOf sent))
        (Client.read (yieldClaudeChatCompletion plainCalls textStream.message)) :=
  (claude_answers_agree_iff textStream usageByName_ne_none usageByName_injective rfl).mpr
    ⟨by decide, .inl ⟨by decide, by decide⟩, ⟨rfl, rfl⟩⟩

/-- A message that thinks before its text. -/
def thinkingStream : ClaudeStream plainCalls.json :=
  { textStream with
    blocks := [⟨.thinking (Utf8.points "t") [], [Utf8.points "t"], [], rfl, rfl⟩,
      ⟨.text (Utf8.points "ab"), [Utf8.points "ab"], [], rfl, rfl⟩] }

/-- The completion of a message that thinks has no text, and its stream has. -/
theorem thinking_hides_text : ¬ ∀ (stream : ClaudeStream plainCalls.json) (events : List SseEvent),
    events.filter (!·.isIdle) = stream.events →
      ∃ sent, fetchClaudeResponseStream plainCalls events [] = (.ok (), sent) ∧
        SameAnswer (callView plainCalls.json) (Client.reassemble (chunksOf sent))
          (Client.read (yieldClaudeChatCompletion plainCalls stream.message)) := by
  intro agree
  obtain ⟨sent, runs, same⟩ := agree thinkingStream thinkingStream.events rfl
  obtain ⟨sent', runs', parts⟩ := @fetch_sends plainCalls plainCalls.json thinkingStream usageByName_ne_none
    thinkingStream.events rfl
  obtain rfl : sent' = sent := congrArg Prod.snd (runs'.symm.trans runs)
  have content := same.content
  have streamed : (Client.reassemble (chunksOf sent')).content = Utf8.points "ab" :=
      congrArg Parts.content parts
  have whole : (Client.read (yieldClaudeChatCompletion plainCalls thinkingStream.message)).content
      = [] := rfl
  rw [streamed, whole] at content
  cases content

/-! ### What the stream keeps of a message -/

/-- The call of a block, with its arguments as they were sent. -/
def StreamedBlock.toolCall (streamed : StreamedBlock calls.json) : Option ToolCall :=
  streamed.block.call?.map fun call => ⟨call.1, call.2, streamed.pieces.flatten⟩

theorem toolDeltas_of_no_toolCall {streamed : StreamedBlock calls.json} :
    streamed.toolCall = none ↔ streamed.toolDeltas = [] := by
  rw [StreamedBlock.toolCall, Option.map_eq_none_iff, toolDeltas_of_noCall]

theorem joined_toolCall {streamed : StreamedBlock calls.json} {call : ToolCall}
    (isCall : streamed.toolCall = some call) : Client.joined streamed.toolDeltas = call := by
  rw [StreamedBlock.toolCall] at isCall
  cases isBlock : streamed.block with
  | text words => rw [isBlock] at isCall; cases isCall
  | thinking words signature => rw [isBlock] at isCall; cases isCall
  | toolUse id name input hasId hasName =>
    rw [isBlock] at isCall
    cases isCall
    exact joined_of_call isBlock

theorem toolDeltas_of_no_toolCalls {blocks : List (StreamedBlock calls.json)} :
    blocks.filterMap StreamedBlock.toolCall = [] ↔ blocks.flatMap StreamedBlock.toolDeltas = [] := by
  rw [List.filterMap_eq_nil_iff, List.flatMap_eq_nil_iff]
  exact forall₂_congr fun streamed _ => toolDeltas_of_no_toolCall

/-- The deltas of blocks with one call are that call. -/
theorem joined_single {blocks : List (StreamedBlock calls.json)} {call : ToolCall}
    (single : blocks.filterMap StreamedBlock.toolCall = [call]) :
    Client.joined (blocks.flatMap StreamedBlock.toolDeltas) = call := by
  induction blocks with
  | nil => cases single
  | cons first others ih =>
    rw [List.flatMap_cons]
    cases isCall : first.toolCall with
    | none =>
      rw [List.filterMap_cons_none isCall] at single
      rw [toolDeltas_of_no_toolCall.mp isCall, List.nil_append, ih single]
    | some own =>
      rw [List.filterMap_cons_some isCall, List.cons.injEq] at single
      rw [toolDeltas_of_no_toolCalls.mp single.2, List.append_nil, joined_toolCall isCall, single.1]

/-- **What a client has of the stream of a message**: all of its texts and all of its thinking, and its calls
exactly if there is one at most. Every call is sent with the index of the first, so a client takes several
for one. -/
theorem claude_stream_keeps_iff (isUsage : ∀ counts, calls.buildOpenaiUsage counts ≠ .none)
    {events : List SseEvent} (sends : events.filter (!·.isIdle) = stream.events) :
    ∃ sent, fetchClaudeResponseStream calls events [] = (.ok (), sent) ∧
      (Client.reassemble (chunksOf sent)).content = stream.blocks.flatMap (·.block.textPart) ∧
      (Client.reassemble (chunksOf sent)).reasoning = stream.blocks.flatMap (·.block.thinkingPart) ∧
      ((Client.reassemble (chunksOf sent)).toolCalls = stream.blocks.filterMap StreamedBlock.toolCall ↔
        (stream.blocks.filterMap StreamedBlock.toolCall).length ≤ 1) := by
  obtain ⟨sent, runs, parts⟩ := fetch_sends stream isUsage sends
  rw [blocks_parts] at parts
  refine ⟨sent, runs, (congrArg Parts.content parts).trans (List.append_nil _),
    (congrArg Parts.reasoning parts).trans (List.append_nil _), ?_⟩
  have toolCalls : (Client.reassemble (chunksOf sent)).toolCalls =
      Client.gathered (stream.blocks.flatMap StreamedBlock.toolDeltas) :=
    congrArg Client.gathered ((congrArg Parts.toolDeltas parts).trans (List.append_nil _))
  rw [toolCalls]
  by_cases none_ : stream.blocks.flatMap StreamedBlock.toolDeltas = []
  · rw [none_, toolDeltas_of_no_toolCalls.mpr none_]
    exact iff_of_true rfl (Nat.zero_le 1)
  · rw [gathered_blocks _ none_]
    constructor
    · intro same
      rw [← same]
      exact le_rfl
    · intro few
      have some_ := mt toolDeltas_of_no_toolCalls.mp none_
      obtain ⟨call, single⟩ := List.length_eq_one_iff.mp
        (le_antisymm few (List.length_pos_iff.mpr some_))
      rw [single, joined_single single]

/-- The message that thinks, with its text and its thinking. -/
theorem claude_stream_keeps_iff_thinking :
    ∃ sent, fetchClaudeResponseStream plainCalls thinkingStream.events [] = (.ok (), sent) ∧
      (Client.reassemble (chunksOf sent)).content = Utf8.points "ab" ∧
      (Client.reassemble (chunksOf sent)).reasoning = Utf8.points "t" ∧
      ((Client.reassemble (chunksOf sent)).toolCalls = [] ↔ 0 ≤ 1) :=
  claude_stream_keeps_iff thinkingStream usageByName_ne_none rfl

end Answers

end UniApi.Providers
