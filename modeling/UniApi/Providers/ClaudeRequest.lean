/-
**The messages of a Claude request: `get_claude_payload` and its copies for Vertex and Bedrock.**

A message of the request becomes a message of the payload, in which a tool call and a tool result are
blocks of a content; then neighbours with one role become one message.

* `readMessage`: the loop over the messages, with the identifier of a tool that it carries along;
* `mergeNeighbours`: the loop over the neighbours;
* `getClaudePayload`, `getVertexClaudePayload`, `getAwsPayload`: the three functions.
-/

import UniApi.Lib.Dict
import UniApi.Lib.PyData

namespace UniApi.Providers.ClaudeRequest

open UniApi.Lib
open UniApi.Lib.PyData (lit)

/-! ### Requests -/

/-- An item of a content. What else it has beside its fields is kept in `extra`, under other names. -/
structure ContentItem where
  type : String
  text : PyText := []
  imageUrl : PyText := []
  extra : List (String × PyData) := []
  extra_names : ∀ member ∈ extra, member.1 ≠ "type" ∧ member.1 ≠ "text"

/-- The content of a message. -/
inductive MessageContent where
  | missing
  | text (words : PyText)
  | items (items : List ContentItem)

/-- The function of a tool call. -/
structure FunctionCall where
  name : PyText
  arguments : PyText

/-- An item as it came. -/
def ContentItem.data (item : ContentItem) : PyData :=
  .dict ([("type", lit item.type), ("text", .str item.text),
    ("image_url", .dict [("url", .str item.imageUrl)])]
    ++ item.extra)

/-- A content as it came. -/
def MessageContent.data : MessageContent → PyData
  | .missing => .none
  | .text words => .str words
  | .items parts => .list (parts.map ContentItem.data)

/-- A tool call. -/
structure ToolCall where
  id : PyText
  function : FunctionCall

/-- A message. Without tool calls the list of them is empty. -/
structure Message where
  role : String
  content : MessageContent := .missing
  name : PyData := .none
  toolCalls : List ToolCall := []
  toolCallId : Option PyText := none
  extra : List (String × PyData) := []

/-- What `parse_owned_json_value` raises. -/
inductive ParseFailure where
  /-- `AdmissionRejected`. -/
  | admissionRejected
  /-- `JSONMemoryComplexityError`, with its text. -/
  | complexity (text : PyText)
  /-- `JSONDecodeError` or `UnicodeDecodeError`, with its text. -/
  | decode (text : PyText)

/-- What the functions raise. -/
inductive PayloadError where
  /-- `AdmissionRejected`. -/
  | admissionRejected
  /-- `HTTPException`. -/
  | http (statusCode : ℕ) (detail : PyText)
  /-- `TypeError`. -/
  | type

/-- The type of a block. -/
def blockType (block : PyData) : PyData := (block.part "type").getD .none

/-- What the functions call, and what they rely on: the block of a text has that text, and the block of
an image is no text and has nothing to do with tools. -/
structure ClaudeCalls where
  parseOwnedJsonValue : PyText → Except ParseFailure PyData
  getTextMessage : PyText → List (String × PyData)
  buildImageMessage : PyText → Except PayloadError (List (String × PyData))
  /-- `provider.get("image", True)`. -/
  image : Bool
  text_type : ∀ words, (getTextMessage words).lookup "type" = some (lit "text")
  text_text : ∀ words, (getTextMessage words).lookup "text" = some (.str words)
  image_type : ∀ url members, buildImageMessage url = .ok members →
    ∀ name ∈ ["text", "tool_use", "tool_result"], (blockType (.dict members)).isText name = false

/-! ### Messages of a payload -/

/-- The content of a message of the payload. -/
inductive ClaudeContent where
  | missing
  | text (words : PyText)
  | blocks (blocks : List PyData)

/-- The content as a value. -/
def ClaudeContent.data : ClaudeContent → PyData
  | .missing => .none
  | .text words => .str words
  | .blocks parts => .list parts

/-- A message of the payload, with what it has beside its role and its content. -/
structure ClaudeMessage where
  role : String
  content : ClaudeContent
  extra : List (String × PyData) := []

/-- `{"type": "tool_use", ...}`. -/
def toolUse (id name input : PyData) : PyData :=
  .dict [("type", lit "tool_use"), ("id", id), ("name", name), ("input", input)]

/-- `{"type": "tool_result", ...}`. -/
def toolResult (toolUseId content : PyData) : PyData :=
  .dict [("type", lit "tool_result"), ("tool_use_id", toolUseId), ("content", content)]

/-- `{"type": "text", ...}`. -/
def textBlock (words : PyText) : PyData := .dict [("type", lit "text"), ("text", .str words)]

/-- `members.update(extra)`. -/
def update (members extra : List (String × PyData)) : List (String × PyData) :=
  extra.foldl (fun members member => Dict.setEntries member.1 member.2 members) members

section Reading

variable (calls : ClaudeCalls)

/-- `_parse_tool_call_arguments`. -/
def parseToolCallArguments (toolCall : ToolCall) : Except PayloadError PyData :=
  let name := Utf8.points "'" ++ toolCall.function.name ++ Utf8.points "'"
  match calls.parseOwnedJsonValue toolCall.function.arguments with
  | .ok value => .ok value
  | .error .admissionRejected => .error .admissionRejected
  | .error (.complexity text) =>
    .error (.http 413 (Utf8.points "tool_call arguments for " ++ name
      ++ Utf8.points " exceed the local JSON complexity limit: " ++ text))
  | .error (.decode text) =>
    .error (.http 400 (Utf8.points "Invalid tool_call arguments for " ++ name ++ Utf8.points ": " ++ text))

/-- The blocks of a content that is a list. -/
def contentBlocks : List ContentItem → Except PayloadError (List PyData)
  | [] => .ok []
  | item :: items =>
    if item.type = "text" then do
      let block := .dict (update (calls.getTextMessage item.text) item.extra)
      return block :: (← contentBlocks items)
    else if item.type = "image_url" ∧ calls.image then do
      let image ← calls.buildImageMessage item.imageUrl
      return .dict (update image item.extra) :: (← contentBlocks items)
    else contentBlocks items

/-- What the loop over the messages has collected. -/
structure Reading where
  messages : List ClaudeMessage := []
  systemPrompt : PyData := .none
  toolId : PyData := .none

/-- `messages.append(...)`. -/
def Reading.add (reading : Reading) (messages : List ClaudeMessage) : Reading :=
  { reading with messages := reading.messages ++ messages }

/-- The identifier of the tool of a message with role `function`. -/
def functionToolId : PyData := lit "toolu_017r5miPMV6PGSNKmhvHPic4"

/-- The rest of the loop, for a message that makes no tool call. -/
def readContent (reading : Reading) (message : Message) (content : ClaudeContent) (toolCallId : PyText) :
    Reading :=
  if toolCallId ≠ [] then
    reading.add [{ role := "user", content := .blocks [toolResult reading.toolId content.data] }]
  else if message.role = "function" then
    reading.add
      [{ role := "assistant", content :=
          .blocks [toolUse functionToolId message.name (.dict [("prompt", lit "...")])] },
        { role := "user", content := .blocks [toolResult functionToolId message.content.data] }]
  else if message.role ≠ "system" then
    reading.add [{ role := message.role, content, extra := message.extra }]
  else { reading with systemPrompt := content.data }

/-- A message that makes a tool call: the first one of its tool calls. -/
def readToolCall (reading : Reading) (message : Message) (toolCall : ToolCall) :
    Except PayloadError Reading := do
  let input ← parseToolCallArguments calls toolCall
  let reading := { reading with toolId := .str toolCall.id }
  return reading.add [{
    role := message.role
    content := .blocks [toolUse (.str toolCall.id) (.str toolCall.function.name) input] }]

/-- A message whose content is no list. -/
def readPlain (reading : Reading) (message : Message) (content : ClaudeContent) :
    Except PayloadError Reading :=
  match message.toolCalls with
  | [] => .ok (readContent reading message content (message.toolCallId.getD []))
  | toolCall :: _ => readToolCall calls reading message toolCall

/-- The body of the loop over the messages. Of a message whose content is a list only the content is read. -/
def readMessage (reading : Reading) (message : Message) : Except PayloadError Reading :=
  match message.content with
  | .missing => readPlain calls reading message .missing
  | .text words => readPlain calls reading message (.text words)
  | .items items => do
    return readContent reading message (.blocks (← contentBlocks calls items)) []

end Reading

/-! ### Neighbours -/

/-- The content of a message and the one of its neighbour. -/
def joinContents (first second : ClaudeContent) : Except PayloadError ClaudeContent :=
  match first, second with
  | .missing, _ => .ok .missing
  | .text [], _ => .ok (.text [])
  | .blocks [], _ => .ok (.blocks [])
  | .text words, .text more => .ok (.text (words ++ more))
  | .text words, .blocks more => .ok (.blocks (textBlock words :: more))
  -- `list.extend` takes a text apart
  | .blocks blocks, .text words => .ok (.blocks (blocks ++ words.map fun letter => .str [letter]))
  | .blocks blocks, .blocks more => .ok (.blocks (blocks ++ more))
  | _, .missing => .error .type

/-- The loop over the neighbours, from a message on. -/
def mergeNeighbours (message : ClaudeMessage) : List ClaudeMessage → Except PayloadError
    (List ClaudeMessage)
  | [] => .ok [message]
  | next :: messages =>
    if message.role = next.role then do
      let content ← joinContents message.content next.content
      mergeNeighbours { message with content } messages
    else do
      return message :: (← mergeNeighbours next messages)

/-- The loop over the neighbours. -/
def mergeMessages : List ClaudeMessage → Except PayloadError (List ClaudeMessage)
  | [] => .ok []
  | message :: messages => mergeNeighbours message messages

/-! ### Payloads -/

/-- The messages and the system prompt of a payload. -/
structure ClaudePayload where
  messages : List ClaudeMessage
  system : Option PyData

/-- The messages of a payload, with what the function does with the system prompt. -/
def getPayload (system : PyData → Option PyData) (calls : ClaudeCalls) (messages : List Message) :
    Except PayloadError ClaudePayload := do
  let reading ← messages.foldlM (readMessage calls) {}
  return { messages := ← mergeMessages reading.messages, system := system reading.systemPrompt }

/-- `get_claude_payload`. -/
def getClaudePayload : ClaudeCalls → List Message → Except PayloadError ClaudePayload :=
  getPayload fun systemPrompt => if systemPrompt.truthy then some systemPrompt else none

/-- `get_vertex_claude_payload`. -/
def getVertexClaudePayload : ClaudeCalls → List Message → Except PayloadError ClaudePayload :=
  getPayload fun systemPrompt => some (systemPrompt.orElse
    (lit "You are Claude, a large language model trained by Anthropic."))

/-- `get_aws_payload`. -/
def getAwsPayload : ClaudeCalls → List Message → Except PayloadError ClaudePayload :=
  getPayload fun _ => none

end UniApi.Providers.ClaudeRequest
