/-
**`chat_completion_events`: the builders of chat completions, and the client that reads them.**

A provider's answer is sent either as one completion or as chunks that a client puts together: texts are
appended, the tool call deltas of one index are appended field by field, and the last usage counts.

* `parts_append`: what a client has after two runs of chunks;
* `deltaParts_*`: what one chunk of each kind adds.
-/

import UniApi.Lib.PyData

namespace UniApi.Streaming

open UniApi.Lib
open UniApi.Lib.PyData (lit)

/-! ### The builders -/

/-- The arguments of `_build_openai_usage`. -/
structure UsageCounts where
  promptTokens : ℤ := 0
  completionTokens : ℤ := 0
  totalTokens : ℤ := 0
  cachedTokens : ℤ := 0
  promptAudioTokens : ℤ := 0
  reasoningTokens : ℤ := 0
  completionAudioTokens : ℤ := 0
  acceptedPredictionTokens : ℤ := 0
  rejectedPredictionTokens : ℤ := 0
  deriving DecidableEq

/-- The arguments that both builders have. -/
structure BuilderArguments where
  timestamp : ℤ
  model : PyData
  content : PyData := .none
  toolsId : PyData := .none
  functionCallName : PyData := .none
  functionCallContent : PyData := .none
  role : PyData := .none
  counts : UsageCounts := {}
  reasoningContent : PyData := .none

/-- What the builders call: `_build_openai_usage`, the strings drawn from the generator that a
timestamp seeds, and `json`. -/
structure BuilderCalls where
  buildOpenaiUsage : UsageCounts → PyData
  randomStr : ℤ → ℕ → PyText
  json : JsonCodec

/-- The counts under the names of a chat completion's usage. -/
def usageByName (counts : UsageCounts) : PyData :=
  .dict [("prompt_tokens", .int counts.promptTokens), ("completion_tokens", .int counts.completionTokens),
    ("total_tokens", .int counts.totalTokens),
    ("prompt_tokens_details", .dict [("cached_tokens", .int counts.cachedTokens),
      ("audio_tokens", .int counts.promptAudioTokens)]),
    ("completion_tokens_details", .dict [("reasoning_tokens", .int counts.reasoningTokens),
      ("audio_tokens", .int counts.completionAudioTokens),
      ("accepted_prediction_tokens", .int counts.acceptedPredictionTokens),
      ("rejected_prediction_tokens", .int counts.rejectedPredictionTokens)])]

theorem usageByName_ne_none (counts : UsageCounts) : usageByName counts ≠ .none := fun same => nomatch same

theorem usageByName_injective : Function.Injective usageByName := by
  intro first second same
  obtain ⟨_, _, _, _, _, _, _, _, _⟩ := first
  obtain ⟨_, _, _, _, _, _, _, _, _⟩ := second
  simpa [usageByName, and_assoc] using same

section Builders

variable (calls : BuilderCalls) (arguments : BuilderArguments)

/-- `sample_data`. -/
def sampleData (id object : PyText) (choices : List PyData) (usage : PyData)
    (others : List (String × PyData)) :
    PyData :=
  .dict ([("id", .str id), ("object", .str object), ("created", .int arguments.timestamp),
    ("model", arguments.model), ("choices", .list choices), ("usage", usage)] ++ others)

/-- `sample_data["usage"]`. -/
def usageOf : PyData :=
  if arguments.counts.totalTokens ≠ 0 then calls.buildOpenaiUsage arguments.counts else .none

/-- A member of `tool_calls` in a chunk. -/
def toolDelta (members : List (String × PyData)) : PyData := .dict (("index", .int 0) :: members)

/-- The `delta` of a chunk. -/
def deltaOf : PyData :=
  if arguments.role.truthy then .dict [("role", arguments.role), ("content", lit "")]
  else if arguments.toolsId.truthy && arguments.functionCallName.truthy then
    .dict [("tool_calls", .list [toolDelta [("id", arguments.toolsId), ("type", lit "function"),
      ("function", .dict [("name", arguments.functionCallName), ("arguments", lit "")])]])]
  else if arguments.functionCallContent.truthy then
    .dict [("tool_calls", .list [toolDelta
      [("function", .dict [("arguments", arguments.functionCallContent)])]])]
  else if arguments.reasoningContent.truthy then
    .dict [("role", lit "assistant"), ("content", lit ""),
      ("reasoning_content", arguments.reasoningContent)]
  else if arguments.content.truthy then
    .dict [("role", lit "assistant"), ("content", arguments.content)]
  else .dict []

/-- A member of `choices` in a chunk. -/
def chunkChoice (delta finishReason : PyData) : PyData :=
  .dict [("index", .int 0), ("delta", delta), ("logprobs", .none), ("finish_reason", finishReason)]

/-- A chunk with these choices. -/
def chunkData (choices : List PyData) : PyData :=
  sampleData arguments (Utf8.points "chatcmpl-" ++ calls.randomStr arguments.timestamp 0)
    (Utf8.points "chat.completion.chunk") choices (usageOf calls arguments)
    [("system_fingerprint", lit "fp_d576307f90")]

/-- `generate_sse_response`, the payload of its event. Of a chunk of usage `stop` has no choice to end. -/
def generateSseResponse (stop : PyData := .none) : Option PyData :=
  let finishReason := if arguments.content.truthy || arguments.reasoningContent.truthy then .none
    else lit "stop"
  let choices :=
    if arguments.counts.totalTokens ≠ 0 then [] else [chunkChoice (deltaOf arguments) finishReason]
  if stop.truthy then
    match choices with
    | [] => none
    | _ :: _ => some (chunkData calls arguments [chunkChoice (.dict []) stop])
  else some (chunkData calls arguments choices)

/-- The arguments of `generate_no_stream_response` alone. -/
structure CompletionArguments where
  imageBase64 : PyData := .none
  audio : PyData := .none
  toolCallsList : PyData := .none
  preserveContentWithToolCalls : Bool := false

/-- The `message` of a completion without tool calls. -/
def messageOf (own : CompletionArguments) : PyData :=
  let hasAudio := match own.audio with | .none => false | _ => true
  let content := if hasAudio && arguments.content.isText "" then .none else arguments.content
  .dict ([("role", arguments.role), ("content", content), ("refusal", .none)]
    ++ (if hasAudio then [("audio", own.audio), ("annotations", .list [])] else [])
    ++ (if arguments.reasoningContent.truthy then
      [("reasoning_content", arguments.reasoningContent)] else []))

/-- A member of `choices` in a completion. -/
def completionChoice (message : PyData) (finishReason : String) : PyData :=
  .dict [("index", .int 0), ("message", message), ("logprobs", .none), ("finish_reason", lit finishReason)]

/-- The `message` of a completion with tool calls. -/
def toolMessage (content toolCalls : PyData) : PyData :=
  .dict [("role", lit "assistant"), ("content", content), ("tool_calls", toolCalls), ("refusal", .none)]

/-- The `tool_calls` of a completion with one call. -/
def functionCalls : PyData :=
  let id :=
    if arguments.toolsId.truthy then arguments.toolsId
    else .str (Utf8.points "call_" ++ calls.randomStr arguments.timestamp 0)
  .list [.dict [("id", id), ("type", lit "function"), ("function", .dict
    [("name", arguments.functionCallName),
     ("arguments", .str (calls.json.dumps arguments.functionCallContent))])]]

/-- A completion with one choice. -/
def completionData (draw : ℕ) (choice : PyData) (others : List (String × PyData)) : PyData :=
  sampleData arguments (Utf8.points "chatcmpl-" ++ calls.randomStr arguments.timestamp draw)
    (Utf8.points "chat.completion") [choice] (usageOf calls arguments) others

/-- `generate_no_stream_response`, before it is written. -/
def generateNoStreamResponse (own : CompletionArguments := {}) : PyData :=
  if own.imageBase64.truthy then
    .dict ([("created", .int arguments.timestamp),
        ("data", .list [.dict [("b64_json", own.imageBase64)]])]
      ++ (if arguments.counts.totalTokens ≠ 0 then [("usage", usageOf calls arguments)] else []))
  else if own.toolCallsList.truthy then
    completionData calls arguments 1
      (completionChoice (toolMessage
        (if own.preserveContentWithToolCalls then arguments.content
          else .none) own.toolCallsList) "tool_calls")
      [("service_tier", lit "default"), ("system_fingerprint", lit "fp_4691090a87")]
  else if arguments.functionCallName.truthy then
    completionData calls arguments 0
      (completionChoice (toolMessage .none (functionCalls calls arguments)) "tool_calls")
      [("service_tier", lit "default"), ("system_fingerprint", lit "fp_4691090a87")]
  else
    completionData calls arguments 0 (completionChoice (messageOf arguments own) "stop")
      [("system_fingerprint", lit "fp_a7d06e42a7")]

end Builders

/-! ### The client -/

/-- A tool call as a client has it. -/
structure ToolCall where
  id : PyText
  name : PyText
  arguments : PyText
  deriving DecidableEq

/-- What a client has of an answer. -/
structure Answer where
  content : PyText
  reasoning : PyText
  toolCalls : List ToolCall
  usage : Option PyData

namespace Client

/-- The text where the keys lead, and no letter where there is no text. -/
def textAt (data : PyData) (keys : List PyKey) : PyText := ((data.follow keys).map PyData.text).getD []

/-- The items where the keys lead. -/
def itemsAt (data : PyData) (keys : List PyKey) : List PyData :=
    ((data.follow keys).bind PyData.asList).getD []

/-- The usage, unless it is null. -/
def usageAt (data : PyData) : Option PyData :=
  match data.part "usage" with
  | some .none => none
  | found => found

/-- The call of a `tool_calls` member. -/
def toolCall (data : PyData) : ToolCall where
  id := textAt data ["id"]
  name := textAt data ["function", "name"]
  arguments := textAt data ["function", "arguments"]

/-- **A completion as a client reads it.** -/
def read (completion : PyData) : Answer where
  content := textAt completion ["choices", 0, "message", "content"]
  reasoning := textAt completion ["choices", 0, "message", "reasoning_content"]
  toolCalls := (itemsAt completion ["choices", 0, "message", "tool_calls"]).map toolCall
  usage := usageAt completion

/-- The tool call deltas of chunks. -/
def toolDeltas (chunks : List PyData) : List PyData :=
  chunks.flatMap (itemsAt · ["choices", 0, "delta", "tool_calls"])

/-- The index of a tool call delta. -/
def indexOf (delta : PyData) : ℤ :=
  match delta.part "index" with
  | some (.int index) => index
  | _ => 0

/-- The deltas of one call, appended field by field. -/
def joined (deltas : List PyData) : ToolCall where
  id := deltas.flatMap (textAt · ["id"])
  name := deltas.flatMap (textAt · ["function", "name"])
  arguments := deltas.flatMap (textAt · ["function", "arguments"])

/-- The calls of deltas, in the order in which their indices appear. -/
def gathered (deltas : List PyData) : List ToolCall :=
  (deltas.map indexOf).eraseDups.map fun index => joined (deltas.filter (indexOf · == index))

/-- **The chunks of an answer as a client puts them together.** -/
def reassemble (chunks : List PyData) : Answer where
  content := chunks.flatMap (textAt · ["choices", 0, "delta", "content"])
  reasoning := chunks.flatMap (textAt · ["choices", 0, "delta", "reasoning_content"])
  toolCalls := gathered (toolDeltas chunks)
  usage := (chunks.filterMap usageAt).getLast?

/-! ### What chunks add -/

/-- The parts of an answer as they are sent. -/
structure Parts where
  content : PyText := []
  reasoning : PyText := []
  toolDeltas : List PyData := []
  usages : List PyData := []

instance : Append Parts where
  append first second :=
    ⟨first.content ++ second.content, first.reasoning ++ second.reasoning,
      first.toolDeltas ++ second.toolDeltas, first.usages ++ second.usages⟩

theorem Parts.nil_append (parts : Parts) : ({} : Parts) ++ parts = parts := rfl

theorem Parts.append_nil (parts : Parts) : parts ++ ({} : Parts) = parts := by
  show Parts.mk _ _ _ _ = _
  simp only [List.append_nil]

theorem Parts.append_assoc (first second third : Parts) :
    first ++ second ++ third = first ++ (second ++ third) := by
  show Parts.mk _ _ _ _ = Parts.mk _ _ _ _
  congr 1 <;> exact List.append_assoc _ _ _

/-- The answer of these parts. -/
def Parts.answer (parts : Parts) : Answer :=
  ⟨parts.content, parts.reasoning, gathered parts.toolDeltas, parts.usages.getLast?⟩

/-- The parts in chunks. -/
def parts (chunks : List PyData) : Parts where
  content := chunks.flatMap (textAt · ["choices", 0, "delta", "content"])
  reasoning := chunks.flatMap (textAt · ["choices", 0, "delta", "reasoning_content"])
  toolDeltas := toolDeltas chunks
  usages := chunks.filterMap usageAt

theorem reassemble_eq (chunks : List PyData) : reassemble chunks = (parts chunks).answer := rfl

theorem parts_append (first second : List PyData) : parts (first ++ second) = parts first
    ++ parts second := by
  show Parts.mk _ _ _ _ = Parts.mk _ _ _ _
  simp only [toolDeltas, List.flatMap_append, List.filterMap_append, parts]

section Adds

variable (calls : BuilderCalls) (arguments : BuilderArguments)

/-- What a delta adds. -/
def deltaParts (delta : PyData) : Parts where
  content := textAt delta ["content"]
  reasoning := textAt delta ["reasoning_content"]
  toolDeltas := itemsAt delta ["tool_calls"]

section Deltas

variable (timestamp : ℤ) (model : PyData)

theorem deltaParts_content {words : PyText} (some_ : words ≠ []) :
    deltaParts (deltaOf { timestamp, model, content := .str words }) = { content := words } := by
  cases words with
  | nil => exact absurd rfl some_
  | cons => rfl

theorem deltaParts_reasoning {words : PyText} (some_ : words ≠ []) :
    deltaParts (deltaOf { timestamp, model, reasoningContent := .str words }) = { reasoning := words } := by
  cases words with
  | nil => exact absurd rfl some_
  | cons => rfl

/-- The first delta of a tool call. -/
def headerDelta (id name : PyText) : PyData :=
  toolDelta [("id", .str id), ("type", lit "function"),
    ("function", .dict [("name", .str name), ("arguments", lit "")])]

/-- A delta of the arguments of a tool call. -/
def argumentsDelta (words : PyText) : PyData := toolDelta [("function", .dict [("arguments", .str words)])]

theorem deltaParts_header {id name : PyText} (hasId : id ≠ []) (hasName : name ≠ []) :
    deltaParts (deltaOf { timestamp, model, toolsId := .str id, functionCallName := .str name })
      = { toolDeltas := [headerDelta id name] } := by
  cases id with
  | nil => exact absurd rfl hasId
  | cons =>
    cases name with
    | nil => exact absurd rfl hasName
    | cons => rfl

theorem deltaParts_arguments (toolsId : PyData) {words : PyText} (some_ : words ≠ []) :
    deltaParts (deltaOf { timestamp, model, toolsId, functionCallContent := .str words })
      = { toolDeltas := [argumentsDelta words] } := by
  have noName : (toolsId.truthy && PyData.none.truthy) = false := Bool.and_false _
  cases words with
  | nil => exact absurd rfl some_
  | cons =>
    rw [deltaOf, noName]
    rfl

end Deltas

theorem usageAt_chunkData (choices : List PyData) :
    usageAt (chunkData calls arguments choices)
      = match usageOf calls arguments with
        | .none => none
        | usage => some usage := by
  have isNull : (chunkData calls arguments choices).part "usage" = some (usageOf calls arguments) := rfl
  rw [usageAt, isNull]
  cases usageOf calls arguments <;> rfl

theorem parts_choice (delta finishReason : PyData) (none_ : arguments.counts.totalTokens = 0) :
    parts [chunkData calls arguments [chunkChoice delta finishReason]] = deltaParts delta := by
  have noUsage : usageAt (chunkData calls arguments [chunkChoice delta finishReason]) = none := by
    rw [usageAt_chunkData, usageOf, if_neg (not_not.mpr none_)]
  simp only [parts, toolDeltas, List.flatMap_cons, List.flatMap_nil, List.append_nil, List.filterMap_cons,
    noUsage, List.filterMap_nil]
  rfl

theorem parts_usage (counted : arguments.counts.totalTokens ≠ 0)
    (isUsage : calls.buildOpenaiUsage arguments.counts ≠ .none) :
    parts [chunkData calls arguments []] = { usages := [calls.buildOpenaiUsage arguments.counts] } := by
  have usage : usageAt (chunkData calls arguments []) = some (calls.buildOpenaiUsage arguments.counts) := by
    rw [usageAt_chunkData, usageOf, if_pos counted]
    split
    · contradiction
    · rfl
  simp only [parts, toolDeltas, List.flatMap_cons, List.flatMap_nil, List.append_nil, List.filterMap_cons,
    usage, List.filterMap_nil]
  rfl

theorem usageAt_of_counts (isUsage : calls.buildOpenaiUsage arguments.counts ≠ .none) {data : PyData}
    (found : data.part "usage" = some (usageOf calls arguments)) :
    usageAt data = if arguments.counts.totalTokens ≠ 0 then some (calls.buildOpenaiUsage arguments.counts)
      else none := by
  rw [usageAt, found, usageOf]
  by_cases counted : arguments.counts.totalTokens ≠ 0
  · rw [if_pos counted, if_pos counted]
    split
    · rename_i isNone
      exact absurd (Option.some.inj isNone) isUsage
    · rfl
  · rw [if_neg counted, if_neg counted]

theorem text_of_falsy {value : PyData} (falsy : value.truthy = false) : value.text = [] := by
  cases value with
  | str words =>
    cases words with
    | nil => rfl
    | cons => cases falsy
  | _ => rfl

theorem read_message (isUsage : calls.buildOpenaiUsage arguments.counts ≠ .none)
    (noCall : arguments.functionCallName.truthy = false) :
    read (generateNoStreamResponse calls arguments) =
      { content := arguments.content.text, reasoning := arguments.reasoningContent.text, toolCalls := [],
        usage := if arguments.counts.totalTokens ≠ 0 then some (calls.buildOpenaiUsage arguments.counts)
          else none } := by
  have built : generateNoStreamResponse calls arguments
      = completionData calls arguments 0 (completionChoice (messageOf arguments {}) "stop")
        [("system_fingerprint", lit "fp_a7d06e42a7")] := by
    show (if arguments.functionCallName.truthy = true then _ else _) = _
    rw [noCall]
    rfl
  have reasoning : textAt (messageOf arguments {}) ["reasoning_content"]
      = arguments.reasoningContent.text := by
    cases isTrue : arguments.reasoningContent.truthy with
    | true =>
      rw [messageOf, isTrue]
      rfl
    | false =>
      rw [messageOf, isTrue, text_of_falsy isTrue]
      rfl
  have noCalls : itemsAt (messageOf arguments {}) ["tool_calls"] = [] := by
    rw [messageOf]
    cases arguments.reasoningContent.truthy <;> rfl
  rw [read, built, usageAt_of_counts calls arguments isUsage rfl]
  congr 1
  show (itemsAt (messageOf arguments {}) ["tool_calls"]).map toolCall = []
  rw [noCalls]
  rfl

/-- A completion with a tool call, as a client reads it: the call alone. -/
theorem read_call (isUsage : calls.buildOpenaiUsage arguments.counts ≠ .none)
    (isCall : arguments.functionCallName.truthy = true) :
    read (generateNoStreamResponse calls arguments) =
      { content := [], reasoning := [],
        toolCalls := [⟨if arguments.toolsId.truthy then arguments.toolsId.text
            else Utf8.points "call_" ++ calls.randomStr arguments.timestamp 0,
          arguments.functionCallName.text, calls.json.dumps arguments.functionCallContent⟩],
        usage := if arguments.counts.totalTokens ≠ 0 then some (calls.buildOpenaiUsage arguments.counts)
          else none } := by
  have built : generateNoStreamResponse calls arguments
      = completionData calls arguments 0
        (completionChoice (toolMessage .none (functionCalls calls arguments)) "tool_calls")
        [("service_tier", lit "default"), ("system_fingerprint", lit "fp_4691090a87")] := by
    show (if arguments.functionCallName.truthy = true then _ else _) = _
    rw [isCall]
    rfl
  have id : textAt (completionData calls arguments 0
        (completionChoice (toolMessage .none (functionCalls calls arguments)) "tool_calls")
        [("service_tier", lit "default"), ("system_fingerprint", lit "fp_4691090a87")])
        ["choices", 0, "message", "tool_calls", 0, "id"] = if arguments.toolsId.truthy
      then arguments.toolsId.text else Utf8.points "call_" ++ calls.randomStr arguments.timestamp 0 := by
    show ((some (if arguments.toolsId.truthy then arguments.toolsId else _)).map PyData.text).getD [] = _
    split <;> rfl
  rw [read, built, usageAt_of_counts calls arguments isUsage rfl]
  congr 1
  rw [← id]
  rfl

/-- Tool call deltas with the index that the builders give them are one call. -/
theorem gathered_of_zero {deltas : List PyData} (zero : ∀ delta ∈ deltas, indexOf delta = 0)
    (some_ : deltas ≠ []) : gathered deltas = [joined deltas] := by
  have indices : (deltas.map indexOf).eraseDups = [0] := by
    cases deltas with
    | nil => exact absurd rfl some_
    | cons first others =>
      have none_ : (others.map indexOf).filter (fun index => !index == 0) = [] := by
        rw [List.filter_eq_nil_iff]
        intro index among
        obtain ⟨delta, isDelta, rfl⟩ := List.mem_map.mp among
        rw [zero delta (List.mem_cons_of_mem _ isDelta)]
        decide
      rw [List.map_cons, List.eraseDups_cons, zero first List.mem_cons_self, none_]
      rfl
  have all : deltas.filter (indexOf · == 0) = deltas :=
    List.filter_eq_self.mpr fun delta isDelta => by rw [zero delta isDelta]; rfl
  rw [gathered, indices, List.map_singleton, all]

theorem joined_append (first second : List PyData) : joined (first ++ second)
    = ⟨(joined first).id ++ (joined second).id, (joined first).name ++ (joined second).name,
      (joined first).arguments ++ (joined second).arguments⟩ := by
  simp only [joined, List.flatMap_append]

theorem joined_arguments (pieces : List PyText) :
    joined (pieces.map argumentsDelta) = ⟨[], [], pieces.flatten⟩ := by
  induction pieces with
  | nil => rfl
  | cons piece pieces ih =>
    have one : joined [argumentsDelta piece] = ⟨[], [], piece⟩ := by
      show ToolCall.mk [] [] (piece ++ []) = _
      rw [List.append_nil]
    rw [List.map_cons, ← List.singleton_append, joined_append, ih, one]
    rfl

theorem joined_call (id name : PyText) (pieces : List PyText) :
    joined (headerDelta id name :: pieces.map argumentsDelta) = ⟨id, name, pieces.flatten⟩ := by
  have header : joined [headerDelta id name] = ⟨id, name, []⟩ := by
    show ToolCall.mk (id ++ []) (name ++ []) [] = _
    rw [List.append_nil, List.append_nil]
  rw [← List.singleton_append, joined_append, joined_arguments, header]
  simp only [List.append_nil, List.nil_append]

end Adds

end Client

end UniApi.Streaming
