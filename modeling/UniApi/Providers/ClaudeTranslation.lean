/-
**What the translation of a request to Claude keeps of a conversation.**

A conversation has letters of the assistant, tool calls and tool results. What the payload has of them is
compared with what the messages have.

* `readMessage_reads`, `readMessages_reads`: what the loop over the messages keeps;
* `preceded_of_answerLast`: each tool result comes behind its call;
* `tool_conversation_kept_iff`: when the payload has the whole conversation.
-/

import UniApi.Providers.ClaudeNeighbours

namespace UniApi.Providers.ClaudeRequest

open UniApi.Lib
open UniApi.Lib.PyData (lit)

/-! ### Transcripts -/

/-- What a conversation has: letters that the assistant said, tool calls, and tool results. -/
inductive Entry where
  | letter (point : CodePoint)
  | toolUse (id name input : PyData)
  | toolResult (toolUseId content : PyData)

namespace Entry

/-- A letter of the assistant. -/
def isLetter : Entry → Bool
  | letter _ => true
  | _ => false

/-- A tool call. -/
def isToolUse : Entry → Bool
  | toolUse _ _ _ => true
  | _ => false

/-- A tool result. -/
def isToolResult : Entry → Bool
  | toolResult _ _ => true
  | _ => false

/-- The entry without the call that a result is for. -/
def unnamed : Entry → Entry
  | toolResult _ content => toolResult .none content
  | entry => entry

end Entry

/-- The letters of a text of this role. -/
def said (role : String) (words : PyText) : List Entry :=
  if role = "assistant" then words.map .letter else []

/-- A member of a block. -/
def member (block : PyData) (name : String) : PyData := (block.part name).getD .none

/-- What a block has. -/
def blockEntries (role : String) (block : PyData) : List Entry :=
  if (blockType block).isText "tool_use" then
    [.toolUse (member block "id") (member block "name") (member block "input")]
  else if (blockType block).isText "tool_result" then
    [.toolResult (member block "tool_use_id") (member block "content")]
  else if (blockType block).isText "text" then said role (member block "text").text
  else []

theorem said_append (role : String) (first second : PyText) :
    said role (first ++ second) = said role first ++ said role second := by
  rw [said, said, said]
  split
  · exact List.map_append
  · rfl

theorem letters_entries (role : String) (words : PyText) :
    (words.map fun letter => PyData.str [letter]).flatMap (blockEntries role) = [] := by
  rw [List.flatMap_eq_nil_iff]
  intro block among
  obtain ⟨letter, -, rfl⟩ := List.mem_map.mp among
  rfl

/-- What the messages of a payload have of a conversation. -/
def reader : Reader Entry where
  text := said
  block := blockEntries
  text_append := said_append
  block_text _ _ := rfl
  block_letters role words _ := letters_entries role words

theorem reader_forgets : reader.Forgets := letters_entries

/-! ### The loop over the messages -/

/-- The text of a content. -/
def MessageContent.words : MessageContent → PyText
  | .missing => []
  | .text words => words
  | .items parts => (parts.filter (·.type = "text")).flatMap (·.text)

/-- The content is a list. -/
def MessageContent.isList : MessageContent → Bool
  | .items _ => true
  | _ => false

section Reading

variable (calls : ClaudeCalls)

/-- The arguments of a tool call, parsed. -/
def inputOf (toolCall : ToolCall) : PyData :=
  match calls.parseOwnedJsonValue toolCall.function.arguments with
  | .ok value => value
  | .error _ => .none

/-- The content of a message, with its items as blocks. -/
def contentOf (content : MessageContent) : PyData :=
  match content with
  | .items parts =>
    match contentBlocks calls parts with
    | .ok blocks => .list blocks
    | .error _ => .none
  | content => content.data

/-- What a tool call is in the payload. -/
def callEntry (toolCall : ToolCall) : Entry :=
  .toolUse (.str toolCall.id) (.str toolCall.function.name) (inputOf calls toolCall)

/-- **What a message has**, where a tool result is for this call. -/
def entriesFor (toolUseId : PyText → PyData) (message : Message) : List Entry :=
  said message.role message.content.words ++ message.toolCalls.map (callEntry calls) ++
    message.toolCallId.toList.map fun id => .toolResult (toolUseId id) (contentOf calls message.content)

/-- **What a message has.** -/
def entries (message : Message) : List Entry := entriesFor calls .str message

/-- The shape of a content, where it is no tool call and no tool result. -/
def shapeOf : MessageContent → Shape
  | .missing => .missing
  | .text words => .text words.isEmpty
  | .items parts => .blocks (parts.all fun item =>
    !(item.type = "text" ∨ item.type = "image_url" ∧ calls.image))

/-- The piece of a message, if it is no system message. -/
def Message.piece (message : Message) : Option Piece :=
  if message.toolCalls ≠ [] then some ⟨message.role, .blocks false, false⟩
  else if message.toolCallId ≠ none then some ⟨"user", .blocks false, false⟩
  else if message.role = "system" then none
  else some ⟨message.role, shapeOf calls message.content,
    (said message.role message.content.words).isEmpty⟩

/-- **A message of a conversation**: the assistant makes tool calls with valid arguments, a tool message
answers one, and the content can be read. -/
structure Message.Sound (message : Message) : Prop where
  role : message.role ≠ "function"
  assistant : message.toolCalls ≠ [] → message.role = "assistant"
  tool : message.toolCallId ≠ none ↔ message.role = "tool"
  arguments : ∀ toolCall ∈ message.toolCalls,
    ∃ value, calls.parseOwnedJsonValue toolCall.function.arguments = .ok value
  content : ∀ parts, message.content = .items parts → ∃ blocks, contentBlocks calls parts = .ok blocks

/-- **A conversation**, in which a tool message answers a call that was made before. -/
structure Conversation (messages : List Message) : Prop where
  sound : ∀ message ∈ messages, message.Sound calls
  answers : ∀ before message later, messages = before ++ message :: later →
    ∀ id, message.toolCallId = some id → ∃ caller ∈ before, ∃ toolCall ∈ caller.toolCalls, toolCall.id = id

/-- **The messages of a payload have the whole conversation**, and each tool result comes behind its call. -/
structure Intact (messages : List Message) (translated : List ClaudeMessage) : Prop where
  toolUses : (reader.transcript translated).filter Entry.isToolUse
    = (messages.flatMap (entries calls)).filter Entry.isToolUse
  toolResults : (reader.transcript translated).filter Entry.isToolResult
    = (messages.flatMap (entries calls)).filter Entry.isToolResult
  letters : (reader.transcript translated).filter Entry.isLetter
    = (messages.flatMap (entries calls)).filter Entry.isLetter
  preceded : ∀ before toolUseId content later,
    reader.transcript translated = before ++ .toolResult toolUseId content :: later →
      ∃ name input, .toolUse toolUseId name input ∈ before

/-- **A message that is read whole**: besides one tool call it has no text, and the content of a tool message
is no list. -/
structure Message.Plain (message : Message) : Prop where
  call : message.toolCalls ≠ [] →
    message.content.isList = false ∧ message.content.words = [] ∧ message.toolCalls.length = 1
  result : ∀ id, message.toolCallId = some id → message.content.isList = false ∧ id ≠ []

/-- The tool messages answer the call that was made last. -/
def AnswerLast (last : Option PyText) : List Message → Prop
  | [] => True
  | message :: messages =>
    (∀ id, message.toolCallId = some id → last = some id) ∧
      AnswerLast ((message.toolCalls.head?.map ToolCall.id).or last) messages

/-- **The messages that are translated whole.** -/
structure Translates (messages : List Message) : Prop where
  plain : ∀ message ∈ messages, message.Plain
  answers : AnswerLast none messages
  merges : MergesAll (messages.filterMap (Message.piece calls))

end Reading

/-! ### Blocks of a content -/

section Blocks

variable {calls : ClaudeCalls} {role : String}

theorem lookup_update {name : String} {extra : List (String × PyData)}
    (apart : ∀ member ∈ extra, member.1 ≠ name) (members : List (String × PyData)) :
    (update members extra).lookup name = members.lookup name := by
  induction extra generalizing members with
  | nil => rfl
  | cons first extra ih =>
    show (update (Dict.setEntries first.1 first.2 members) extra).lookup name = _
    rw [ih (fun other among => apart other (List.mem_cons_of_mem first among)), Dict.lookup_setEntries,
      if_neg (apart first List.mem_cons_self).symm]

theorem blockEntries_text (item : ContentItem) :
    blockEntries role (.dict (update (calls.getTextMessage item.text) item.extra))
      = said role item.text := by
  have type : blockType (.dict (update (calls.getTextMessage item.text) item.extra)) = lit "text" := by
    show ((update _ _).lookup "type").getD .none = _
    rw [lookup_update fun other among => (item.extra_names other among).1, calls.text_type]
    rfl
  have text : member (.dict (update (calls.getTextMessage item.text) item.extra)) "text"
      = .str item.text := by
    show ((update _ _).lookup "text").getD .none = _
    rw [lookup_update fun other among => (item.extra_names other among).2, calls.text_text]
    rfl
  rw [blockEntries, type, text]
  rfl

theorem blockEntries_image (item : ContentItem) {members : List (String × PyData)}
    (image : calls.buildImageMessage item.imageUrl = .ok members) :
    blockEntries role (.dict (update members item.extra)) = [] := by
  have type : blockType (.dict (update members item.extra)) = blockType (.dict members) := by
    show ((update _ _).lookup "type").getD .none = _
    rw [lookup_update fun other among => (item.extra_names other among).1]
    rfl
  have others := calls.image_type item.imageUrl members image
  rw [blockEntries, type, others "tool_use" (by simp), others "tool_result" (by simp),
    others "text" (by simp)]
  rfl

/-- **The blocks of a content** have its text. -/
theorem contentBlocks_entries : ∀ {parts : List ContentItem} {blocks : List PyData},
    contentBlocks calls parts = .ok blocks →
      blocks.flatMap (blockEntries role) = said role (MessageContent.items parts).words ∧
        ClaudeContent.shape (.blocks blocks) = shapeOf calls (.items parts)
  | [], _, translates => by
    cases translates
    exact ⟨(reader.text_nil role).symm, rfl⟩
  | item :: parts, blocks, translates => by
    rw [contentBlocks] at translates
    rw [MessageContent.words, shapeOf, List.all_cons]
    by_cases isText : item.type = "text"
    · rw [if_pos isText, bind_eq_ok] at translates
      obtain ⟨rest, others, same⟩ := translates
      cases same
      rw [List.flatMap_cons, blockEntries_text, (contentBlocks_entries others).1,
        List.filter_cons_of_pos (by simpa using isText), List.flatMap_cons, ← said_append]
      exact ⟨rfl, by simp [isText, ClaudeContent.shape]⟩
    · rw [List.filter_cons_of_neg (by simpa using isText)]
      by_cases isImage : item.type = "image_url" ∧ calls.image
      · rw [if_neg isText, if_pos isImage, bind_eq_ok] at translates
        obtain ⟨members, image, later⟩ := translates
        obtain ⟨rest, others, same⟩ := bind_eq_ok.mp later
        cases same
        rw [List.flatMap_cons, blockEntries_image item image, (contentBlocks_entries others).1]
        exact ⟨rfl, by simp [isImage, ClaudeContent.shape]⟩
      · rw [if_neg isText, if_neg isImage] at translates
        obtain ⟨words, shape⟩ := contentBlocks_entries translates
        refine ⟨words, shape.trans ?_⟩
        rw [shapeOf]
        simp [isText, isImage]

end Blocks

/-! ### Reading the messages -/

section Messages

variable {calls : ClaudeCalls} {message : Message} {reading after : Reading}

theorem Message.Sound.noId (sound : message.Sound calls) (calling : message.toolCalls ≠ []) :
    message.toolCallId = none := by
  by_contra isTool
  have both := (sound.assistant calling).symm.trans (sound.tool.mp isTool)
  exact absurd both (by decide)

theorem Message.Sound.parses (sound : message.Sound calls) {toolCall : ToolCall}
    (among : toolCall ∈ message.toolCalls) :
    parseToolCallArguments calls toolCall = .ok (inputOf calls toolCall) := by
  obtain ⟨value, parsed⟩ := sound.arguments toolCall among
  rw [parseToolCallArguments, inputOf, parsed]

/-- What reading a message adds to the messages of the payload, and what is lost of the message. -/
structure ReadAs (calls : ClaudeCalls) (reading : Reading) (message : Message) (after : Reading)
    (added : List ClaudeMessage) : Prop where
  messages : after.messages = reading.messages ++ added
  fewer : ((reader.transcript added).map Entry.unnamed).Sublist ((entries calls message).map Entry.unnamed)
  plain : (entries calls message).length ≤ (reader.transcript added).length → message.Plain
  whole : message.Plain → added.map (ClaudeMessage.piece reader) = (message.piece calls).toList ∧
    reader.transcript added = entriesFor calls (fun _ => reading.toolId) message
  toolId : message.Plain →
    after.toolId = (message.toolCalls.head?.map fun toolCall => .str toolCall.id).getD reading.toolId

/-- A message whose first tool call is read. -/
theorem readToolCall_reads (sound : message.Sound calls) {toolCall : ToolCall} {others : List ToolCall}
    (calling : message.toolCalls = toolCall :: others) (notList : message.content.isList = false) :
    ∃ after added, readToolCall calls reading message toolCall = .ok after ∧
      ReadAs calls reading message after added := by
  have among : toolCall ∈ message.toolCalls := by simp [calling]
  have isAssistant := sound.assistant (by simp [calling])
  have noId := sound.noId (by simp [calling])
  have has (toolUseId : PyText → PyData) : entriesFor calls toolUseId message
      = message.content.words.map .letter ++ callEntry calls toolCall :: others.map (callEntry calls) := by
    rw [entriesFor, said, if_pos isAssistant, calling, noId]
    exact List.append_nil _
  refine ⟨_, [⟨message.role, .blocks [toolUse (.str toolCall.id) (.str toolCall.function.name)
    (inputOf calls toolCall)], []⟩], by rw [readToolCall, sound.parses among]; rfl, rfl, ?_, ?_, ?_, ?_⟩
  · rw [entries, has, List.map_append]
    exact List.singleton_sublist.mpr (List.mem_append_right _ List.mem_cons_self)
  · intro enough
    rw [entries, has, List.length_append, List.length_cons, List.length_map, List.length_map] at enough
    have one : (reader.transcript [⟨message.role, .blocks
        [toolUse (.str toolCall.id) (.str toolCall.function.name)
      (inputOf calls toolCall)], []⟩]).length = 1 := rfl
    rw [one] at enough
    refine ⟨fun _ => ⟨notList, List.eq_nil_of_length_eq_zero (by omega), ?_⟩, ?_⟩
    · rw [calling, List.length_cons]
      omega
    · intro id isId
      rw [noId] at isId
      cases isId
  · intro plain
    obtain ⟨-, noWords, one⟩ := plain.call (by simp [calling])
    rw [calling, List.length_cons] at one
    have alone : others = [] := List.eq_nil_of_length_eq_zero (by omega)
    refine ⟨?_, ?_⟩
    · rw [Message.piece, if_pos (by simp [calling])]
      rfl
    · rw [has, noWords, alone]
      rfl
  · intro _
    rw [calling]
    rfl

/-- A message of which the content is read. -/
theorem readContent_reads (sound : message.Sound calls) {content : ClaudeContent} {toolCallId : PyText}
    (data : content.data = contentOf calls message.content)
    (has : reader.content message.role content = said message.role message.content.words)
    (shape : content.shape = shapeOf calls message.content)
    (isId : toolCallId = if message.content.isList then [] else message.toolCallId.getD [])
    (noCall : message.content.isList = false → message.toolCalls = []) :
    ∃ added, ReadAs calls reading message (readContent reading message content toolCallId) added := by
  by_cases result : toolCallId ≠ []
  · obtain ⟨notList, id, isSome, some_⟩ : message.content.isList = false ∧ ∃ id,
        message.toolCallId = some id ∧ toolCallId = id := by
      cases notList : message.content.isList with
      | true => exact absurd (isId.trans (if_pos notList)) result
      | false =>
        rw [notList] at isId
        cases isSome : message.toolCallId with
        | none =>
          rw [isSome] at isId
          exact absurd isId result
        | some id =>
          rw [isSome] at isId
          exact ⟨rfl, id, rfl, isId⟩
    subst some_
    have isTool := sound.tool.mp (by simp [isSome])
    have entry (toolUseId : PyText → PyData) : entriesFor calls toolUseId message
        = [.toolResult (toolUseId toolCallId) content.data] := by
      rw [entriesFor, said, if_neg (by rw [isTool]; decide), noCall notList, isSome, data]
      rfl
    refine ⟨[⟨"user", .blocks [toolResult reading.toolId content.data], []⟩], ?_, ?_, ?_, ?_, ?_⟩
    · rw [readContent, if_pos result]
      rfl
    · rw [entries, entry]
      exact .refl _
    · exact fun _ => ⟨fun calling => absurd (noCall notList) calling, fun id same => by
        rw [isSome] at same
        cases same
        exact ⟨notList, result⟩⟩
    · intro _
      rw [Message.piece, if_neg (not_not.mpr (noCall notList)), if_pos (by simp [isSome]), entry]
      exact ⟨rfl, rfl⟩
    · intro _
      rw [readContent, if_pos result, noCall notList]
      rfl
  · obtain ⟨added, runs, transcribed, pieces⟩ : ∃ added,
        (readContent reading message content toolCallId).messages = reading.messages ++ added ∧
          reader.transcript added = said message.role message.content.words ∧
          added.map (ClaudeMessage.piece reader) = (if message.role = "system" then none
            else some (⟨message.role, shapeOf calls message.content,
              (said message.role message.content.words).isEmpty⟩ : Piece)).toList := by
      by_cases system : message.role = "system"
      · refine ⟨[], ?_, ?_, ?_⟩
        · rw [readContent, if_neg result, if_neg sound.role, if_neg (not_not.mpr system), List.append_nil]
        · rw [said, if_neg (by rw [system]; decide)]
          rfl
        · rw [if_pos system]
          rfl
      · refine ⟨[⟨message.role, content, message.extra⟩], ?_, ?_, ?_⟩
        · rw [readContent, if_neg result, if_neg sound.role, if_pos system]
          rfl
        · exact (List.flatMap_singleton _ _).trans has
        · rw [if_neg system, ← shape, ← has]
          rfl
    have toolId : (readContent reading message content toolCallId).toolId = reading.toolId := by
      rw [readContent, if_neg result, if_neg sound.role]
      split <;> rfl
    have only (plain : message.Plain) : message.toolCalls = [] ∧ message.toolCallId = none := by
      have noCalls : message.toolCalls = [] := by
        by_contra calling
        exact calling (noCall (plain.call calling).1)
      refine ⟨noCalls, ?_⟩
      cases isSome : message.toolCallId with
      | none => rfl
      | some id =>
        obtain ⟨notList, some_⟩ := plain.result id isSome
        rw [notList, isSome] at isId
        exact absurd (isId ▸ some_) result
    refine ⟨added, runs, ?_, ?_, ?_, ?_⟩
    · rw [transcribed, entries, entriesFor, List.append_assoc, List.map_append]
      exact List.sublist_append_left _ _
    · intro enough
      rw [transcribed, entries, entriesFor, List.length_append, List.length_append, List.length_map,
        List.length_map] at enough
      have noCalls : message.toolCalls = [] := List.eq_nil_of_length_eq_zero (by omega)
      have noId : message.toolCallId.toList = [] := List.eq_nil_of_length_eq_zero (by omega)
      refine ⟨fun calling => absurd noCalls calling, fun id same => ?_⟩
      rw [same] at noId
      cases noId
    · intro plain
      obtain ⟨noCalls, noId⟩ := only plain
      rw [pieces, transcribed, Message.piece, if_neg (not_not.mpr noCalls), if_neg
        (not_not.mpr noId), entriesFor,
        noCalls, noId]
      refine ⟨rfl, ?_⟩
      show _ = said _ _ ++ [] ++ []
      rw [List.append_nil, List.append_nil]
    · intro plain
      rw [toolId, (only plain).1]
      rfl

/-- **What reading a message does.** -/
theorem readMessage_reads (sound : message.Sound calls) : ∃ after added,
    readMessage calls reading message = .ok after ∧ ReadAs calls reading message after added := by
  have readsPlain {content : ClaudeContent} (notList : message.content.isList = false)
      (data : content.data = contentOf calls message.content)
      (has : reader.content message.role content = said message.role message.content.words)
      (shape : content.shape = shapeOf calls message.content) : ∃ after added,
      readPlain calls reading message content = .ok after ∧ ReadAs calls reading message after added := by
    rw [readPlain]
    cases calling : message.toolCalls with
    | nil =>
      obtain ⟨added, reads⟩ := @readContent_reads calls message reading sound content _ data has shape
        (if_neg (by rw [notList]; exact Bool.false_ne_true)).symm fun _ => calling
      exact ⟨_, added, rfl, reads⟩
    | cons toolCall others => exact readToolCall_reads sound calling notList
  rw [readMessage]
  cases isContent : message.content with
  | missing =>
    refine readsPlain ?_ ?_ ?_ ?_ <;> rw [isContent]
    · rfl
    · rfl
    · exact (reader.text_nil _).symm
    · rfl
  | text words => refine readsPlain ?_ ?_ ?_ ?_ <;> rw [isContent] <;> rfl
  | items parts =>
    obtain ⟨blocks, translates⟩ := sound.content parts isContent
    obtain ⟨words, shape⟩ := @contentBlocks_entries calls message.role _ _ translates
    obtain ⟨added, reads⟩ := @readContent_reads calls message reading sound (.blocks blocks) []
      (by rw [isContent, contentOf, translates]; rfl) (by rw [isContent]; exact words) (by rw [isContent, shape])
      (by rw [isContent]; rfl) (by rw [isContent]; exact fun same => by cases same)
    exact ⟨_, added, by dsimp only; rw [translates]; rfl, reads⟩

/-- What the messages have, where a tool result is for the tool call that was read last. -/
def entriesFrom (calls : ClaudeCalls) (toolId : PyData) : List Message → List Entry
  | [] => []
  | message :: messages => entriesFor calls (fun _ => toolId) message ++
      entriesFrom calls ((message.toolCalls.head?.map fun toolCall =>
        .str toolCall.id).getD toolId) messages

/-- **What reading the messages does.** -/
theorem readMessages_reads : ∀ {messages : List Message} {reading : Reading},
    (∀ message ∈ messages, message.Sound calls) → ∃ after added,
      messages.foldlM (readMessage calls) reading = .ok after ∧
        after.messages = reading.messages ++ added ∧
        (reader.transcript added).length ≤ (messages.flatMap (entries calls)).length ∧
        ((messages.flatMap (entries calls)).length ≤ (reader.transcript added).length →
          ∀ message ∈ messages, message.Plain) ∧
        ((∀ message ∈ messages, message.Plain) →
          added.map (ClaudeMessage.piece reader) = messages.filterMap (Message.piece calls) ∧
            reader.transcript added = entriesFrom calls reading.toolId messages)
  | [], reading, _ => ⟨reading, [], rfl, (List.append_nil _).symm, le_rfl,
      fun _ _ among => absurd among List.not_mem_nil, fun _ => ⟨rfl, rfl⟩⟩
  | message :: messages, reading, sound => by
    obtain ⟨between, first, runs, reads⟩ :=
      @readMessage_reads calls message reading (sound message List.mem_cons_self)
    obtain ⟨after, others, runs', messages', fewer, plain, whole⟩ := @readMessages_reads messages between
      fun other among => sound other (List.mem_cons_of_mem message among)
    have shorter := reads.fewer.length_le
    simp only [List.length_map] at shorter
    refine ⟨after, first ++ others, ?_, ?_, ?_, ?_, ?_⟩
    · rw [List.foldlM_cons, runs]
      exact runs'
    · rw [messages', reads.messages, List.append_assoc]
    · rw [reader.transcript_append, List.flatMap_cons, List.length_append, List.length_append]
      omega
    · intro enough
      rw [reader.transcript_append, List.flatMap_cons, List.length_append, List.length_append] at enough
      exact List.forall_mem_cons.mpr ⟨reads.plain (by omega), plain (by omega)⟩
    · intro isPlain
      obtain ⟨here, later⟩ := List.forall_mem_cons.mp isPlain
      obtain ⟨pieces, all⟩ := reads.whole here
      obtain ⟨pieces', all'⟩ := whole later
      refine ⟨?_, ?_⟩
      · rw [List.map_append, pieces, pieces', List.filterMap_cons]
        cases message.piece calls <;> rfl
      · rw [reader.transcript_append, all, all', entriesFrom, reads.toolId here]

end Messages

/-! ### Whole conversations -/

section Whole

variable {calls : ClaudeCalls}

/-- The identifier of the last tool call. -/
def toolIdOf (last : Option PyText) : PyData := (last.map PyData.str).getD .none

/-- **Tool results are for the calls that they answer**, if these were made last. -/
theorem entriesFrom_eq : ∀ {messages : List Message} {last : Option PyText}, AnswerLast last messages →
    entriesFrom calls (toolIdOf last) messages = messages.flatMap (entries calls)
  | [], _, _ => rfl
  | message :: messages, last, answers => by
    have later := @entriesFrom_eq messages _ answers.2
    have toolId : (message.toolCalls.head?.map fun toolCall => PyData.str toolCall.id).getD (toolIdOf last)
        = toolIdOf ((message.toolCalls.head?.map ToolCall.id).or last) := by
      cases message.toolCalls <;> rfl
    rw [entriesFrom, toolId, later, List.flatMap_cons, entries, entriesFor, entriesFor]
    cases isSome : message.toolCallId with
    | none => rfl
    | some id =>
      rw [answers.1 id isSome]
      rfl

theorem filter_results (toolUseId : PyText → PyData) (message : Message) :
    (entriesFor calls toolUseId message).filter Entry.isToolResult
      = message.toolCallId.toList.map fun id => .toolResult (toolUseId id)
        (contentOf calls message.content) := by
  have noLetters : (said message.role message.content.words).filter Entry.isToolResult = [] := by
    rw [said]
    split
    · rw [List.filter_eq_nil_iff]
      intro entry among
      obtain ⟨letter, -, rfl⟩ := List.mem_map.mp among
      exact Bool.false_ne_true
    · rfl
  have noCalls : (message.toolCalls.map (callEntry calls)).filter Entry.isToolResult = [] := by
    rw [List.filter_eq_nil_iff]
    intro entry among
    obtain ⟨toolCall, -, rfl⟩ := List.mem_map.mp among
    exact Bool.false_ne_true
  rw [entriesFor, List.filter_append, List.filter_append, noLetters, noCalls]
  cases message.toolCallId <;> rfl

/-- **Tool results that are for the right calls** are for the calls that were made last. -/
theorem answerLast_of_results : ∀ {messages : List Message} {last : Option PyText},
    (entriesFrom calls (toolIdOf last) messages).filter Entry.isToolResult
      = (messages.flatMap (entries calls)).filter Entry.isToolResult → AnswerLast last messages
  | [], _, _ => trivial
  | message :: messages, last, same => by
    have toolId : (message.toolCalls.head?.map fun toolCall => PyData.str toolCall.id).getD (toolIdOf last)
        = toolIdOf ((message.toolCalls.head?.map ToolCall.id).or last) := by
      cases message.toolCalls <;> rfl
    rw [entriesFrom, toolId, List.flatMap_cons, List.filter_append, List.filter_append, entries,
      filter_results,
      filter_results] at same
    cases isSome : message.toolCallId with
    | none =>
      rw [isSome] at same
      exact ⟨fun id found => (by rw [isSome] at found; cases found), answerLast_of_results same⟩
    | some id =>
      rw [isSome] at same
      obtain ⟨first, others⟩ := List.cons.inj same
      refine ⟨fun id' found => ?_, answerLast_of_results others⟩
      rw [isSome] at found
      cases found
      have isId : toolIdOf last = .str id := (Entry.toolResult.inj first).1
      cases last with
      | none => cases isId
      | some last => rw [PyData.str.inj isId]

theorem lastCall_of (message : Message) (last : Option PyText) :
    toolIdOf ((message.toolCalls.head?.map ToolCall.id).or last) = toolIdOf last ∨
      ∃ name input, Entry.toolUse (toolIdOf ((message.toolCalls.head?.map ToolCall.id).or last)) name input
        ∈ entries calls message := by
  rw [entries, entriesFor]
  cases message.toolCalls with
  | nil => exact .inl rfl
  | cons toolCall others =>
    exact .inr ⟨_, _, List.mem_append_left _ (List.mem_append_right _ List.mem_cons_self)⟩

/-- **A tool result comes behind its call**, or is for the call that was made last before. -/
theorem preceded_of_answerLast : ∀ {messages : List Message} {last : Option PyText},
    AnswerLast last messages →
    ∀ {before toolUseId content later},
      messages.flatMap (entries calls) = before ++ .toolResult toolUseId content :: later →
        toolIdOf last = toolUseId ∨ ∃ name input, Entry.toolUse toolUseId name input ∈ before
  | [], _, _, _, _, _, _, split => by
    have none_ := (List.append_eq_nil_iff.mp split.symm).2
    cases none_
  | message :: messages, last, answers, before, toolUseId, content, later, split => by
    rw [List.flatMap_cons] at split
    have behind {before' : List Entry} (isBefore : before = entries calls message ++ before')
        (split' : messages.flatMap (entries calls) = before' ++ .toolResult toolUseId content :: later) :
        toolIdOf last = toolUseId ∨ ∃ name input, Entry.toolUse toolUseId name input ∈ before := by
      rcases preceded_of_answerLast answers.2 split' with isLast | ⟨name, input, among⟩
      · rcases @lastCall_of calls message last with same | ⟨name, input, among⟩
        · exact .inl (same.symm.trans isLast)
        · rw [isLast] at among
          exact .inr ⟨name, input, isBefore ▸ List.mem_append_left _ among⟩
      · exact .inr ⟨name, input, isBefore ▸ List.mem_append_right _ among⟩
    rcases List.append_eq_append_iff.mp split with ⟨before', isBefore, rest⟩ | ⟨rest, isEntries, rest'⟩
    · exact behind isBefore rest
    · cases rest with
      | nil =>
        rw [List.append_nil] at isEntries
        exact @behind [] (by rw [isEntries, List.append_nil]) rest'.symm
      | cons entry rest =>
        obtain ⟨rfl, -⟩ := List.cons.inj rest'
        have among : Entry.toolResult toolUseId content ∈
            (entries calls message).filter Entry.isToolResult := by
          rw [isEntries]
          exact List.mem_filter.mpr ⟨by simp, rfl⟩
        rw [entries, filter_results, List.mem_map] at among
        obtain ⟨id, isId, same⟩ := among
        rw [Option.mem_toList] at isId
        rw [answers.1 id isId, ← (Entry.toolResult.inj same).1]
        exact .inl rfl

theorem length_kinds (entries : List Entry) : entries.length = (entries.filter Entry.isToolUse).length
    + (entries.filter Entry.isToolResult).length + (entries.filter Entry.isLetter).length := by
  induction entries with
  | nil => rfl
  | cons entry entries ih =>
    rw [List.length_cons, ih]
    cases entry <;> simp only [List.filter_cons, Entry.isToolUse, Entry.isToolResult, Entry.isLetter,
      Bool.false_eq_true, if_true, if_false, List.length_cons] <;> omega

/-- **The messages of a payload have the whole conversation exactly when each message is translated whole.** -/
theorem getPayload_intact_iff (system : PyData → Option PyData) {messages : List Message}
    (conversation : Conversation calls messages) :
    (∃ payload, getPayload system calls messages = .ok payload ∧ Intact calls messages payload.messages) ↔
      Translates calls messages := by
  obtain ⟨reading, added, reads, isAdded, fewer, plain, whole⟩ :=
    @readMessages_reads calls messages {} conversation.sound
  have isAdded : reading.messages = added := isAdded
  have fromNone : entriesFrom calls (toolIdOf none) messages = entriesFrom calls .none messages := rfl
  constructor
  · rintro ⟨payload, built, intact⟩
    obtain ⟨reading', reads', built⟩ := bind_eq_ok.mp built
    cases reads.symm.trans reads'
    obtain ⟨merged, merges, same⟩ := bind_eq_ok.mp built
    cases same
    rw [isAdded] at merges
    obtain ⟨some_, pieces⟩ := mergeMessages_ok reader_forgets merges
    have all : (reader.transcript merged).length = (messages.flatMap (entries calls)).length := by
      rw [length_kinds, length_kinds (messages.flatMap (entries calls)), intact.toolUses,
        intact.toolResults,
        intact.letters]
    have shorter := some_.length_le
    have isPlain := plain (by omega)
    obtain ⟨isPieces, isTranscript⟩ := whole isPlain
    refine ⟨isPlain, ?_, isPieces ▸ pieces (by omega)⟩
    have nothingLost : reader.transcript merged = entriesFrom calls .none messages :=
      (some_.eq_of_length_le (by omega)).trans isTranscript
    exact answerLast_of_results (by rw [fromNone, ← nothingLost]; exact intact.toolResults)
  · rintro ⟨isPlain, answers, merges⟩
    obtain ⟨isPieces, isTranscript⟩ := whole isPlain
    obtain ⟨merged, runs, kept⟩ := mergeMessages_whole
      (show MergesAll (added.map (ClaudeMessage.piece reader)) by
      rwa [isPieces])
    have all : reader.transcript merged = messages.flatMap (entries calls) := by
      rw [kept, isTranscript, ← fromNone, entriesFrom_eq answers]
    refine ⟨⟨merged, system reading.systemPrompt⟩, ?_, ?_⟩
    · refine bind_eq_ok.mpr ⟨reading, reads, bind_eq_ok.mpr ⟨merged, ?_, rfl⟩⟩
      rw [isAdded, runs]
    · refine ⟨by rw [all], by rw [all], by rw [all], ?_⟩
      intro before toolUseId content later split
      rw [all] at split
      refine (preceded_of_answerLast answers split).resolve_left fun isNone => ?_
      obtain ⟨message, -, among⟩ := List.mem_flatMap.mp
        (show Entry.toolResult toolUseId content ∈ messages.flatMap (entries calls) by simp [split])
      have result := List.mem_filter.mpr ⟨among,
          (rfl : Entry.isToolResult (.toolResult toolUseId content) = true)⟩
      rw [entries, filter_results, List.mem_map] at result
      obtain ⟨id, -, same⟩ := result
      rw [← (Entry.toolResult.inj same).1] at isNone
      cases isNone

/-- The functions whose payload has these messages. -/
def claudePayloads : List (ClaudeCalls → List Message → Except PayloadError ClaudePayload) :=
  [getClaudePayload, getVertexClaudePayload, getAwsPayload]

/-- **A conversation is kept whole exactly when** each message with tool calls has one of them and nothing
else, each tool message has a text and answers the call that was made last, and neighbours with one role are
joined without a loss. -/
theorem tool_conversation_kept_iff {calls : ClaudeCalls} {messages : List Message}
    {payloadOf : ClaudeCalls → List Message → Except PayloadError ClaudePayload}
    (isPayload : payloadOf ∈ claudePayloads) (conversation : Conversation calls messages) :
    (∃ payload, payloadOf calls messages = .ok payload ∧ Intact calls messages payload.messages) ↔
      Translates calls messages := by
  simp only [claudePayloads, List.mem_cons, List.not_mem_nil, or_false] at isPayload
  rcases isPayload with rfl | rfl | rfl
  · exact getPayload_intact_iff _ conversation
  · exact getPayload_intact_iff _ conversation
  · exact getPayload_intact_iff _ conversation

/-! One tool call and its result are kept, and the second of two tool calls is lost. -/

/-- Calls with the decoder of the library. -/
noncomputable def plainClaudeCalls : ClaudeCalls where
  parseOwnedJsonValue text :=
    match JsonCodec.standard.loads text with
    | some value => .ok value
    | none => .error (.decode (Utf8.points "Expecting value"))
  getTextMessage words := [("type", lit "text"), ("text", .str words)]
  buildImageMessage _ := .ok [("type", lit "image")]
  image := true
  text_type _ := rfl
  text_text _ := rfl
  image_type url members isImage name among := by
    cases isImage
    simp only [List.mem_cons, List.not_mem_nil, or_false] at among
    rcases among with rfl | rfl | rfl <;> decide

/-- A tool call with this identifier. -/
def plainCall (id : CodePoint) : ToolCall := ⟨[id], [98], Utf8.points "\x7b\x7d"⟩

/-- The assistant makes tool calls, and each of them is answered. -/
def toolConversation (ids : List CodePoint) : List Message :=
  { role := "assistant", toolCalls := ids.map plainCall }
    :: ids.map fun id => { role := "tool", content := .text [id], toolCallId := some [id] }

theorem toolConversation_isConversation (ids : List CodePoint) :
    Conversation plainClaudeCalls (toolConversation ids) where
  sound message among := by
    rcases List.mem_cons.mp among with rfl | among
    · refine ⟨by simp, fun _ => rfl, ?_, ?_, fun parts isItems => by cases isItems⟩
      · exact iff_of_false (fun isTool => isTool rfl) (by simp)
      · intro toolCall among
        obtain ⟨id, -, rfl⟩ := List.mem_map.mp among
        refine ⟨.dict [], ?_⟩
        show (match JsonCodec.standard.loads (Utf8.points "\x7b\x7d") with
          | some value => Except.ok value
          | none => .error (ParseFailure.decode (Utf8.points "Expecting value"))) = _
        rw [JsonCodec.standard.loads_braces]
    · obtain ⟨id, -, rfl⟩ := List.mem_map.mp among
      refine ⟨by simp, fun calling => absurd rfl calling, ?_, ?_, fun parts isItems => by cases isItems⟩
      · exact iff_of_true (by simp) rfl
      · exact fun toolCall among => absurd among List.not_mem_nil
  answers before message later split id isId := by
    cases before with
    | nil =>
      obtain ⟨rfl, -⟩ := List.cons.inj split
      cases isId
    | cons caller before =>
      obtain ⟨rfl, others⟩ := List.cons.inj split
      have among : message ∈ ids.map fun id =>
          ({ role := "tool", content := .text [id], toolCallId := some [id] }
          : Message) := by
        rw [others]
        simp
      obtain ⟨point, isPoint, rfl⟩ := List.mem_map.mp among
      cases isId
      exact ⟨_, List.mem_cons_self, plainCall point, List.mem_map_of_mem isPoint, rfl⟩

theorem tool_conversation_kept_iff_call : ∃ payload,
    getClaudePayload plainClaudeCalls (toolConversation [97]) = .ok payload ∧
      Intact plainClaudeCalls (toolConversation [97]) payload.messages := by
  refine (tool_conversation_kept_iff (List.mem_cons_self) (toolConversation_isConversation [97])).mpr
    ⟨?_, ?_, ?_⟩
  · intro message among
    simp only [toolConversation, List.map_cons, List.map_nil, List.mem_cons, List.not_mem_nil,
      or_false] at among
    rcases among with rfl | rfl
    · exact ⟨fun _ => ⟨rfl, rfl, rfl⟩, fun id isId => by cases isId⟩
    · exact ⟨fun calling => absurd rfl calling, fun id isId => by cases isId; exact ⟨rfl, by simp⟩⟩
  · exact ⟨fun id isId => (by cases isId), fun id isId => isId.symm ▸ rfl, trivial⟩
  · trivial

theorem second_call_lost : Conversation plainClaudeCalls (toolConversation [97, 99]) ∧
    ¬ ∃ payload, getClaudePayload plainClaudeCalls (toolConversation [97, 99]) = .ok payload ∧
      Intact plainClaudeCalls (toolConversation [97, 99]) payload.messages := by
  have conversation := toolConversation_isConversation [97, 99]
  refine ⟨conversation, fun kept => ?_⟩
  have translates := (getPayload_intact_iff _ conversation).mp kept
  have one := ((translates.plain _ List.mem_cons_self).call (List.cons_ne_nil _ _)).2.2
  exact absurd one (by decide)

end Whole

end UniApi.Providers.ClaudeRequest
