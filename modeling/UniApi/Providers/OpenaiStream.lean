/-
**The OpenAI-compatible pass-through: `fetch_gpt_response_stream`.**

An event of the upstream is either sent on as it is, or a text of it is sent in a chunk of its own.
Which of the two happens depends on what the events before it left in the flags and in the buffer.

* `transformEvent`: the inner function, in the order of its branches;
* `transformEvents`, `fetchGptResponseStream`: the loop over the events, and what follows it.
-/

import Mathlib.Data.List.DropRight
import UniApi.Lib.Dict
import UniApi.Providers.Sending

namespace UniApi.Providers.OpenaiStream

open UniApi.Lib UniApi.Streaming
open UniApi.Lib.PyData (lit)

/-! ### The state of a stream -/

/-- What the stream raises. -/
inductive RelayError where
  /-- `SSEProtocolError`. -/
  | protocol (message : String)
  /-- `SSEBufferOverflowError`. -/
  | bufferOverflow (bufferName : String) (limitBytes observedBytes : ℕ)
  /-- `UnicodeEncodeError`. -/
  | unicode
  /-- `TypeError`. -/
  | type
  /-- `AttributeError`. -/
  | attribute
  /-- `IndexError`. -/
  | index

/-- What the stream sends: a comment as it came, the payload of a chunk, or `[DONE]`. -/
inductive Relayed where
  | comment (rawEvent : PyText)
  | chunk (payload : PyData)
  | done

/-- The variables that the events share, and what was sent. -/
structure RelayState where
  isThinking : Bool := false
  hasSendThinking : Bool := false
  arkTag : Bool := false
  enterBuffer : PyText := []
  inputTokens : ℤ := 0
  outputTokens : ℤ := 0
  semanticTerminalSeen : Bool := false
  completedNormally : Bool := false
  sent : List Relayed := []

/-- A call of the stream. -/
abbrev Relaying := Raise RelayError RelayState

/-- An event of the upstream. -/
inductive UpstreamEvent where
  | comment (rawEvent : PyText)
  | data (payload : PyData)

/-- What the stream calls. `seedOf` is the number that `random.seed` takes of a value, where it takes it. -/
structure RelayCalls extends StreamCalls where
  seedOf : PyData → Option ℤ

/-! ### The steps of an event -/

/-- `_bounded_text_concat`. -/
def boundedTextConcat (current addition : PyText) (label : String) (limitBytes : ℕ := 256) :
    Except RelayError PyText :=
  match Utf8.encodePoints current, Utf8.encodePoints addition with
  | some first, some second =>
    let observed := first.length + second.length
    if limitBytes < observed then .error (.bufferOverflow label limitBytes observed)
    else .ok (current ++ addition)
  | _, _ => .error .unicode

/-- `yield`. -/
def relay (item : Relayed) : Relaying Unit := Raise.modify fun state =>
  { state with sent := state.sent ++ [item] }

/-- `needle in value`. -/
def isIn (needle : String) (value : PyData) : Relaying Bool :=
  match value with
  | .str words => return isSubstring (Utf8.points needle) words
  | .list items => return items.any (·.isText needle)
  | .dict members => return (members.lookup needle).isSome
  | _ => Raise.throw .type

/-- The text whose method is called. -/
def receiver (value : PyData) : Relaying PyText :=
  match value.asStr with
  | some words => return words
  | none => Raise.throw .attribute

/-- `value is not None`. -/
def isGiven (value : PyData) : Bool :=
  match value with
  | .none => false
  | _ => true

/-- `text.replace(old, new)` of literals. -/
def replaced (old new : String) (text : PyText) : PyText :=
  PyText.replace (Utf8.points old) (Utf8.points new) text

section Steps

variable (calls : RelayCalls)

/-- `yield await generate_sse_response(...)`. -/
def relaySse (arguments : BuilderArguments) (stop : PyData := .none) : Relaying Unit :=
  match generateSseResponse calls.toBuilderCalls arguments stop with
  | some payload => relay (.chunk payload)
  | none => Raise.throw .index

/-- `yield await generate_sse_response(timestamp, payload["model"], reasoning_content=...)`. -/
def relayReasoning (reasoning : PyData) : Relaying Unit :=
  relaySse calls { calls.base with reasoningContent := reasoning }

/-- `yield await generate_sse_response(timestamp, payload["model"], content=...)`. -/
def relayContent (content : PyData) : Relaying Unit := relaySse calls { calls.base with content := content }

/-- `if text: yield ...`. -/
def relayIf (send : PyData → Relaying Unit) (words : PyText) : Relaying Unit :=
  if words.isEmpty then return () else send (.str words)

/-- The reasoning of a thinking mode, if there is any. -/
def relayThinking (reasoning : PyData) : Relaying Unit :=
  if reasoning.truthy then do
    relayReasoning calls reasoning
    Raise.modify ({ · with hasSendThinking := true })
  else return ()

/-- The events of the Responses API, with whether the event was one. -/
def responsesEvent (line : PyData) : Relaying Bool := do
  let eventType := (line.part "type").getD .none
  let delta := (line.part "delta").getD .none
  if eventType.isText "response.reasoning_summary_text.delta" && delta.truthy then
    relayReasoning calls delta
    return true
  if eventType.isText "response.reasoning_summary_text.done" then
    relayReasoning calls (lit "\n\n")
    return true
  if eventType.isText "response.output_text.delta" && delta.truthy then
    relayContent calls delta
    return true
  if eventType.isText "response.output_text.done" then
    relaySse calls calls.base (lit "stop")
    return true
  if eventType.isText "response.completed" then
    let count name := calls.coerce (calls.safeGet line ["response", "usage", name] (.int 0))
    Raise.modify ({ · with
      inputTokens := count "input_tokens", outputTokens := count "output_tokens",
      semanticTerminalSeen := true, completedNormally := true })
    return true
  return (Utf8.points "response.").isPrefixOf eventType.text

/-- The texts before and behind `</think>`. -/
def endThink (content : PyText) : PyText × PyText :=
  let tag := Utf8.points "</think>"
  let isBreak : CodePoint → Bool := (· == 10)
  if tag.isSuffixOf (content.rdropWhile isBreak) then
    ((replaced "</think>" "" content).rdropWhile isBreak, [])
  else if tag.isPrefixOf (content.dropWhile isBreak) then
    ([], (replaced "</think>" "" content).dropWhile isBreak)
  else (PyText.splitOnce tag content).getD (content, [])

/-- `<think>` in front of a thinking text. -/
def openTag (content : PyData) : Relaying PyData := do
  if ← isIn "<think>" content then
    Raise.modify ({ · with isThinking := true, arkTag := true })
    return .str (replaced "<think>" "" (← receiver content))
  else
    return content

/-- `</think>` behind it. -/
def closeTag (content : PyData) : Relaying Unit := do
  Raise.modify ({ · with isThinking := false })
  let words ← receiver content
  relayIf (relayReasoning calls) (endThink words).1
  relayIf (relayContent calls) (endThink words).2

/-- A text between the tags. The first one has no blank lines. -/
def insideTags (content : PyData) : Relaying Unit := do
  if (← Raise.get).hasSendThinking then
    relayThinking calls content
  else
    relayThinking calls (.str (replaced "\n\n" "" (← receiver content)))

/-- A thinking text behind `<think>`, with what is left to do: the content, or nothing. -/
def behindTag (content : PyData) : Relaying (Option PyData) := do
  if ← isIn "</think>" content then
    closeTag calls content
    return none
  let state ← Raise.get
  if state.isThinking && state.arkTag then
    insideTags calls content
    return none
  return some content

/-- The tags around a thinking text. -/
def thinkTags (content : PyData) : Relaying (Option PyData) := do
  behindTag calls (← openTag content)

/-- `Thinking...` in front of a quoted thinking text. -/
def openQuote (content : PyData) : Relaying PyData := do
  if (← isIn "Thinking..." content) && (← isIn "\n> " content) then
    Raise.modify ({ · with isThinking := true })
    return .str (replaced "\n> " "" (replaced "Thinking..." "" (← receiver content)))
  else
    return content

/-- A blank line behind it. -/
def closeQuote (content : PyData) : Relaying Unit := do
  let state ← Raise.get
  if state.isThinking && (← isIn "\n\n" content) && !state.arkTag then
    Raise.modify ({ · with isThinking := false })

/-- A text of the quote. The first one has no line breaks. -/
def insideQuote (content : PyData) : Relaying Unit := do
  let words := replaced "\n> " "" (← receiver content)
  if (← Raise.get).hasSendThinking then
    relayThinking calls (.str words)
  else
    relayThinking calls (.str (replaced "\n" "" words))

/-- The quoted thinking text, with whether the event is done with. -/
def quotedThinking (content : PyData) : Relaying Bool := do
  let content ← openQuote content
  closeQuote content
  let state ← Raise.get
  if state.isThinking && !state.arkTag then
    insideQuote calls content
    return true
  return false

/-- An image of the event, with whether there is one. -/
def relayImage (line : PyData) : Relaying Bool := do
  let image := calls.safeGet line ["choices", 0, "delta", "images", 0, "image_url", "url"] (lit "")
  if image.truthy then
    let url ← receiver image
    let data := if (Utf8.points "data:").isPrefixOf url then url
      else Utf8.points "data:image/png;base64," ++ url
    relayContent calls (.str (Utf8.points "\n![image](" ++ data ++ Utf8.points ")"))
    return true
  return false

/-- A part of the summary in a content that is no text. -/
def summaryPart (line : PyData) (name : String) : PyData :=
  calls.safeGet line ["choices", 0, "delta", "content", 0, "summary", 0, .name name] (lit "")

/-- A summary of the reasoning, with whether the event has one. -/
def relaySummary (line : PyData) : Relaying Bool := do
  if (summaryPart calls line "signature").truthy then
    return true
  if (summaryPart calls line "text").truthy then
    relayReasoning calls (summaryPart calls line "text")
    return true
  return false

/-- `enter_buffer = _bounded_text_concat(enter_buffer, ..., label="reasoning escape buffer")`. -/
def keepEscape (addition : String) : Relaying Unit := do
  let state ← Raise.get
  let longer ← Raise.ofExcept
    (boundedTextConcat state.enterBuffer (Utf8.points addition) "reasoning escape buffer")
  Raise.modify ({ · with enterBuffer := longer })

/-- The reasoning of the event, whose line breaks may be written as escapes in two events. -/
def relayEscaped (reasoning : PyText) : Relaying Unit := do
  let state ← Raise.get
  let buffer := state.enterBuffer
  if (Utf8.points "\\").isSuffixOf reasoning then
    let front := buffer ++ reasoning.dropLast
    Raise.modify ({ · with enterBuffer := Utf8.points "\\" })
    relayIf (relayReasoning calls) (replaced "\\n" "\n" front)
  else if (Utf8.points "\\").isSuffixOf buffer && reasoning == Utf8.points "n" then
    keepEscape "n"
  else if (Utf8.points "\\n").isSuffixOf buffer && reasoning == Utf8.points "\\n" then
    keepEscape "\\n"
  else
    let whole := if (Utf8.points "\\n\\n").isSuffixOf buffer then Utf8.points "\n\n" ++ reasoning
      else buffer ++ reasoning
    Raise.modify ({ · with enterBuffer := [] })
    relayReasoning calls (.str (replaced "\\n" "\n" whole))

/-- The chunk of the message of a whole completion, with the time and the model of the completion. -/
def messageChunk (line content : PyData) : Relaying Unit :=
  let created := calls.safeGet line ["created"] .none
  let model := calls.safeGet line ["model"] .none
  match calls.seedOf created with
  | none => Raise.throw .type
  | some seed =>
    match generateSseResponse calls.toBuilderCalls { timestamp := seed, model := model, content := content }
      .none with
    | some (.dict members) => relay (.chunk (.dict (Dict.setEntries "created" created members)))
    | _ => Raise.throw .index

/-- `del line["choices"][0]["message"]`, where the event has a message. -/
def dropMessage (line : PyData) : PyData :=
  match line, line.follow ["choices"], line.follow ["choices", 0] with
  | .dict members, some (.list (_ :: others)), some (.dict choice) =>
    .dict (Dict.setEntries "choices"
      (.list (.dict (choice.filter fun member => member.1 != "message") :: others)) members)
  | _, _, _ => line

/-- `line["id"] = f"chatcmpl-{random_str}"`. -/
def named (members : List (String × PyData)) : PyData :=
  .dict (Dict.setEntries "id" (.str (Utf8.points "chatcmpl-" ++ calls.randomStr calls.timestamp 0)) members)

/-- A finish reason is noted. -/
def noteFinish (line : PyData) : Relaying Unit :=
  if isGiven (calls.safeGet line ["choices", 0, "finish_reason"] .none) then
    Raise.modify ({ · with semanticTerminalSeen := true })
  else return ()

/-- What is done with an event that is an object, behind its content. -/
def transformBehind (line : PyData) : Relaying Unit := do
  if ← relayImage calls line then
    return
  if ← relaySummary calls line then
    return
  let reasoning := calls.safeGet line ["choices", 0, "delta", "reasoning"] (lit "")
  let message := calls.safeGet line ["choices", 0, "message", "content"] .none
  if reasoning.truthy then
    relayEscaped calls (← receiver reasoning)
  else if message.truthy && !(← Raise.get).hasSendThinking then
    messageChunk calls line message
  else
    relay (.chunk (if message.truthy then dropMessage line else line))

/-- What is done with an event that is no event of the Responses API. -/
def transformContent (line : PyData) : Relaying Unit := do
  match ← thinkTags calls (calls.safeGet line ["choices", 0, "delta", "content"] (lit "")) with
  | none => return
  | some content =>
    if ← quotedThinking calls content then
      return
    transformBehind calls line

/-- What is done with an event that is an object. -/
def transformLine (line : PyData) : Relaying Unit := do
  noteFinish calls line
  if ← responsesEvent calls line then
    return
  transformContent calls line

/-- `transform_event`. -/
def transformEvent (event : UpstreamEvent) : Relaying Unit :=
  match event with
  | .comment rawEvent => relay (.comment rawEvent)
  | .data (.dict members) => transformLine calls (named calls members)
  | .data (.str text) =>
    if text == Utf8.points "[DONE]" then Raise.modify ({ · with completedNormally := true })
    else if (PyText.strip text).isEmpty then return ()
    else Raise.throw (.protocol "upstream SSE data is not valid JSON")
  | .data payload =>
    if payload.truthy then Raise.throw (.protocol "upstream SSE data is not valid JSON")
    else return ()

/-- The loop over the events of the upstream. -/
def transformEvents : List UpstreamEvent → Relaying Unit
  | [] => return ()
  | event :: events => do
    transformEvent calls event
    if (← Raise.get).completedNormally then return ()
    transformEvents events

/-- `fetch_gpt_response_stream`, from the events of a response on. -/
def fetchGptResponseStream (events : List UpstreamEvent) : Relaying Unit := do
  transformEvents calls events
  let state ← Raise.get
  if !state.completedNormally && !state.semanticTerminalSeen then
    Raise.throw (.protocol "OpenAI-compatible upstream ended without a terminal event")
  if state.inputTokens != 0 && state.outputTokens != 0 then
    relaySse calls { calls.base with
      counts := {
        totalTokens := state.inputTokens + state.outputTokens
        promptTokens := state.inputTokens
        completionTokens := state.outputTokens } }
  relay .done

end Steps

/-! ### What is sent -/

theorem return_bind {α β : Type} (value : α) (next : α → Relaying β) : (pure value >>= next)
    = next value := rfl

theorem bind_of_ok {α β : Type} {call : Relaying α} {next : α → Relaying β}
    {state between : RelayState} {value : α}
    (runs : call state = (.ok value, between)) : (call >>= next) state = next value between := by
  rw [Raise.bind_apply, runs]

theorem get_bind {α : Type} (next : RelayState → Relaying α) (state : RelayState) :
    (Raise.get >>= next) state = next state state := rfl

end UniApi.Providers.OpenaiStream
