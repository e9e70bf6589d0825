/-
**Gemini answers: `fetch_gemini_response_stream` and `_yield_gemini_chat_completion`.**

Both put the parts of a response in a normal form, the stream for each response and the completion once
for all of them. The normal form has the texts and the first call.

* `normalize_parts`: the normal form of parts;
* `fetchGemini_sends`, `fetchGemini_refused`: what a stream sends, and when it raises;
* `yieldGemini_eq`: what the completion is built of;
* `gemini_answers_agree_iff`: when a client has the same answer of both.
-/

import Mathlib.Data.List.Infix
import UniApi.Lib.Utf8
import UniApi.Lib.PyText
import UniApi.Providers.Sending

namespace UniApi.Providers

open UniApi.Lib UniApi.Streaming
open UniApi.Lib.PyData (lit)
open UniApi.Streaming.Client (Parts)

/-! ### The normal form of parts -/

/-- What the Gemini functions call besides the builders: `str` of a value that is no string, `str.lower`,
and `_gemini_audio_inline_data_to_wav_base64`. -/
structure GeminiCalls extends StreamCalls where
  strOfOther : PyData → PyText
  tables : PyText.CaseTables
  inlineDataToWav : PyText → PyText → Option PyText

/-- `GeminiInlinePart`, without the signature, which is only cached. -/
structure GeminiInlinePart where
  mimeType : PyText
  dataBase64 : PyText

/-- `GeminiFunctionCall`. -/
structure GeminiFunctionCall where
  name : Option PyText
  arguments : PyData := .none
  callId : Option PyText := none

/-- `GeminiPartsNormalization`. -/
structure GeminiPartsNormalization where
  content : PyText := []
  reasoningContent : PyText := []
  imageBase64 : Option PyText := none
  audioWavBase64 : Option PyText := none
  isThinking : Bool := false
  functionCall : GeminiFunctionCall := { name := none }

/-- `GEMINI_THOUGHT_SIGNATURE_MAX_BYTES`. -/
def thoughtSignatureMaxBytes : ℕ := 64 * 1024

/-- `_HASH_CHUNK_CHARS`. -/
def hashChunkChars : ℕ := 64 * 1024

/-- The loop of `_bounded_utf8_size` over the chunks of a text. -/
def boundedUtf8SizeFrom (limitBytes observed : ℕ) : List PyText → Except StreamError ℕ
  | [] => .ok observed
  | chunk :: chunks =>
    match Utf8.encodePoints chunk with
    | none => .error .unicode
    | some bytes =>
      let observed := observed + bytes.length
      if limitBytes < observed then .ok observed else boundedUtf8SizeFrom limitBytes observed chunks

/-- `_bounded_utf8_size`. -/
def boundedUtf8Size (value : PyText) (limitBytes : ℕ) : Except StreamError ℕ :=
  if limitBytes < value.length then .ok (limitBytes + 1)
  else boundedUtf8SizeFrom limitBytes 0 (value.toChunks hashChunkChars)

/-- A letter of the URL-safe base64 alphabet. -/
def base64Letter (value : ℕ) : CodePoint :=
  if value < 26 then 65 + value
  else if value < 52 then 71 + value
  else if value < 62 then value - 4
  else if value = 62 then 45
  else 95

/-- `base64.urlsafe_b64encode(...).rstrip("=")`. -/
def base64Url : Bytes → PyText
  | first :: second :: third :: rest =>
    [base64Letter (first.toNat / 4), base64Letter (first.toNat % 4 * 16 + second.toNat / 16),
      base64Letter (second.toNat % 16 * 4 + third.toNat / 64), base64Letter (third.toNat % 64)]
      ++ base64Url rest
  | [first, second] =>
    [base64Letter (first.toNat / 4), base64Letter (first.toNat % 4 * 16 + second.toNat / 16),
      base64Letter (second.toNat % 16 * 4)]
  | [first] => [base64Letter (first.toNat / 4), base64Letter (first.toNat % 4 * 16)]
  | [] => []

/-- `_function_call_id_from_thought_signature`, with the hexadecimal digits of the random id. -/
def functionCallId (uuid : PyText) (thoughtSignature : PyData) : Except StreamError (Option PyText) :=
  match thoughtSignature with
  | .str signature =>
    if signature.isEmpty then .ok none
    else do
      if thoughtSignatureMaxBytes < (← boundedUtf8Size signature thoughtSignatureMaxBytes) then
        .error .signatureTooLarge
      else
        match Utf8.encodePoints signature with
        | none => .error .unicode
        | some bytes => .ok (some (Utf8.points "call_" ++ base64Url bytes ++ Utf8.points "." ++ uuid))
  | _ => .ok none

section Normalization

variable (calls : GeminiCalls)

/-- `str(value)`. -/
def strOf (value : PyData) : PyText :=
  match value with
  | .str text => text
  | value => calls.strOfOther value

/-- The value at the first keys that lead to a true one: `safe_get(...)`, and `safe_get(...)` of the other
spelling if that is false. -/
def safeGetEither (data : PyData) (first second : List PyKey) : PyData :=
  let value := calls.safeGet data first .none
  if value.truthy then value else calls.safeGet data second .none

/-- `_part_inline_data`. -/
def partInlineData (part : PyData) : Option GeminiInlinePart :=
  match safeGetEither calls part ["inlineData", "mimeType"] ["inline_data", "mime_type"],
      safeGetEither calls part ["inlineData", "data"] ["inline_data", "data"] with
  | .str mimeType, .str dataBase64 =>
    if mimeType.isEmpty || 256 < mimeType.length || dataBase64.isEmpty then none
    else some ⟨mimeType, dataBase64⟩
  | _, _ => none

/-- What inline data adds to the normal form. -/
def withInline (result : GeminiPartsNormalization) (inline : GeminiInlinePart) : GeminiPartsNormalization :=
  let mimeType := calls.tables.lower inline.mimeType
  if (Utf8.points "image/").isPrefixOf mimeType then { result with imageBase64 := some inline.dataBase64 }
  else if (Utf8.points "audio/").isPrefixOf mimeType then
    { result with
      audioWavBase64 :=
        match calls.inlineDataToWav inline.mimeType inline.dataBase64 with
        | some (letter :: letters) => some (letter :: letters)
        | _ => result.audioWavBase64 }
  else result

/-- The texts of a part. -/
def withText (result : GeminiPartsNormalization) (part : PyData) : GeminiPartsNormalization :=
  let text := calls.safeGet part ["text"] .none
  let isThinking := (calls.safeGet part ["thought"] (.bool false)).truthy
  let result := { result with isThinking := result.isThinking || isThinking }
  if text.truthy then
    if isThinking then { result with reasoningContent := result.reasoningContent ++ strOf calls text }
    else { result with content := result.content ++ strOf calls text }
  else result

/-- The function call of a part, if there was none before. -/
def withCall (uuid : PyText) (result : GeminiPartsNormalization) (part : PyData) :
    Except StreamError GeminiPartsNormalization := do
  let functionName := calls.safeGet part ["functionCall", "name"] .none
  if functionName.truthy && (result.functionCall.name.getD []).isEmpty then
    let thoughtSignature := safeGetEither calls part ["thoughtSignature"] ["thought_signature"]
    let callId ← functionCallId uuid thoughtSignature
    return { result with
      functionCall :=
        { name := some (strOf calls functionName)
          arguments := calls.safeGet part ["functionCall", "args"] .none
          callId := callId } }
  else return result

/-- The body of the loop of `normalize_gemini_parts`. -/
def normalizePart (uuid : PyText) (result : GeminiPartsNormalization) (part : PyData) :
    Except StreamError GeminiPartsNormalization :=
  match part with
  | .dict _ =>
    let result := withText calls result part
    let result := ((partInlineData calls part).map (withInline calls result)).getD result
    withCall calls uuid result part
  | _ => .ok result

/-- `normalize_gemini_parts`, with the digits of the random id of its call. -/
def normalizeGeminiParts (uuid : PyText) (parts : List PyData) :
    Except StreamError GeminiPartsNormalization :=
  parts.foldlM (normalizePart calls uuid) {}

/-- `GeminiFunctionCall.arguments_json`. -/
def argumentsJson (call : GeminiFunctionCall) : Option PyText :=
  match call.arguments with
  | .none => none
  | .str [] => none
  | arguments => some (calls.json.dumps arguments)

/-- `build_openai_audio_object`, with the digits of its random id. -/
def buildOpenaiAudioObject (uuid : PyText) (audioWavBase64 : Option PyText) (transcript : PyText) :
    PyData :=
  match audioWavBase64 with
  | none => .none
  | some [] => .none
  | some audio =>
    .dict [("id", .str (Utf8.points "audio_" ++ uuid.take 24)), ("data", .str audio), ("expires_at", .none),
      ("transcript", if transcript.isEmpty then .none else .str transcript), ("format", lit "wav")]

end Normalization

/-! ### The stream -/

/-- A response with the digits of the random ids that are drawn while it is handled. -/
structure GeminiEvent where
  response : PyData
  callUuid : PyText
  audioUuid : PyText

/-- The token counts of a response. -/
structure GeminiCounts where
  promptTokenCount : ℤ := 0
  candidatesTokenCount : ℤ := 0
  totalTokenCount : ℤ := 0
  cachedContentTokenCount : ℤ := 0
  thoughtsTokenCount : ℤ := 0

/-- What `fetch_gemini_response_stream` keeps between responses. -/
structure GeminiState where
  counts : GeminiCounts := {}
  terminalSeen : Bool := false

/-- What `gemini_json_poccess` returns. -/
structure GeminiProcessed where
  normalized : GeminiPartsNormalization
  finishReason : PyData
  blockReason : PyData
  counts : GeminiCounts

section Stream

variable (calls : GeminiCalls)

/-- The counts under the names of Gemini, where `count` gives the one of a name. -/
def geminiCounts (count : String → ℤ) : GeminiCounts where
  promptTokenCount := count "promptTokenCount"
  candidatesTokenCount := count "candidatesTokenCount"
  totalTokenCount := count "totalTokenCount"
  cachedContentTokenCount := count "cachedContentTokenCount"
  thoughtsTokenCount := count "thoughtsTokenCount"

/-- The counts for the builders. -/
def GeminiCounts.usage (counts : GeminiCounts) : UsageCounts where
  totalTokens :=
    if counts.totalTokenCount ≠ 0 then counts.totalTokenCount
    else counts.promptTokenCount + (counts.candidatesTokenCount + counts.thoughtsTokenCount)
  promptTokens := counts.promptTokenCount
  completionTokens := counts.candidatesTokenCount + counts.thoughtsTokenCount
  cachedTokens := counts.cachedContentTokenCount
  reasoningTokens := counts.thoughtsTokenCount

/-- `gemini_json_poccess`. -/
def geminiJsonPoccess (event : GeminiEvent) : Except StreamError GeminiProcessed := do
  let jsonData := calls.safeGet event.response ["candidates", 0, "content"] .none
  let finishReason := calls.safeGet event.response ["candidates", 0, "finishReason"] .none
  let counts :=
    match event.response.part "usageMetadata" with
    | some (.dict usage) =>
      if finishReason.truthy then
        geminiCounts fun name => calls.coerce ((usage.lookup name).getD (.int 0))
      else {}
    | _ => {}
  let partsList := calls.safeGet jsonData ["parts"] (.list [])
  let normalized ← normalizeGeminiParts calls event.callUuid (partsList.asList.getD [])
  let blockReason := calls.safeGet jsonData [0, "promptFeedback", "blockReason"] .none
  return { normalized, finishReason, blockReason, counts }

/-- The text chunks of a response. -/
def sendTexts (normalized : GeminiPartsNormalization) : Sending Unit := do
  sendSseIf (normalized.isThinking && !normalized.reasoningContent.isEmpty) calls.toBuilderCalls
    { calls.base with reasoningContent := .str normalized.reasoningContent }
  sendSseIf ((normalized.imageBase64.getD []).isEmpty && !normalized.content.isEmpty) calls.toBuilderCalls
    { calls.base with content := .str normalized.content }

/-- The media of a response. -/
def sendMedia (event : GeminiEvent) (processed : GeminiProcessed) : Sending Unit := do
  let normalized := processed.normalized
  let image := normalized.imageBase64.getD []
  if !image.isEmpty then
    if !isSubstring (Utf8.points "flash-image") calls.model.text
        && !isSubstring (Utf8.points "pro-image") calls.model.text then
      send (.body (generateNoStreamResponse calls.toBuilderCalls
        { calls.base with content := .str normalized.content, counts := processed.counts.usage }
        { imageBase64 := .str image }))
    else
      sendSse calls.toBuilderCalls { calls.base with
        content := .str (Utf8.points "\n![image](data:image/png;base64," ++ image ++ Utf8.points ")") }
  if !(normalized.audioWavBase64.getD []).isEmpty then
    let content : PyData := if normalized.content.isEmpty then .none else .str normalized.content
    send (.body (generateNoStreamResponse calls.toBuilderCalls
      { calls.base with content := content, role := lit "assistant", counts := processed.counts.usage }
      { audio := buildOpenaiAudioObject event.audioUuid normalized.audioWavBase64 normalized.content }))

/-- `value or None` of an optional text, as a value. -/
def optionText (text : Option PyText) : PyData := (text.map PyData.str).getD .none

/-- The tool call chunks of a response. -/
def sendCall (call : GeminiFunctionCall) : Sending Unit := do
  sendSseIf (optionText call.name).truthy calls.toBuilderCalls
    { calls.base with toolsId := optionText call.callId, functionCallName := optionText call.name }
  let arguments := optionText (argumentsJson calls call)
  sendSseIf arguments.truthy calls.toBuilderCalls
    { calls.base with toolsId := optionText call.callId, functionCallContent := arguments }

/-- The body of the loop of `fetch_gemini_response_stream`, and whether it breaks. -/
def geminiEvent (state : GeminiState) (event : GeminiEvent) : Sending (GeminiState × Bool) := do
  let processed ← Raise.ofExcept (geminiJsonPoccess calls event)
  sendTexts calls processed.normalized
  sendMedia calls event processed
  sendCall calls processed.normalized.functionCall
  if processed.blockReason.isText "PROHIBITED_CONTENT" then
    sendSse calls.toBuilderCalls calls.base (lit "PROHIBITED_CONTENT")
    return (⟨processed.counts, true⟩, true)
  if processed.finishReason.truthy then
    sendSse calls.toBuilderCalls calls.base (lit "stop")
    return (⟨processed.counts, true⟩, true)
  return ({ state with counts := processed.counts }, false)

/-- `fetch_gemini_response_stream`, on the objects of a response that succeeded. -/
def fetchGeminiResponseStream (events : List GeminiEvent) : Sending Unit := do
  let state ← loop (geminiEvent calls) {} events
  if !state.terminalSeen then Raise.throw (.protocol "Gemini upstream ended without a finish reason")
  sendSse calls.toBuilderCalls { calls.base with counts := state.counts.usage }
  send .done

/-- `_parse_provider_json_response`. -/
def parseProviderJsonResponse (response : PyData) : Except StreamError PyData :=
  match response with
  | .str _ => .error (.protocol "provider returned nested JSON text instead of an object or array")
  | .list items => .ok (.list items)
  | .dict members => .ok (.list [.dict members])
  | _ => .error (.protocol "provider returned unsupported JSON type")

/-- The completion of a normal form with these counts. -/
def geminiCompletion (audioUuid : PyText) (normalized : GeminiPartsNormalization) (counts : GeminiCounts) :
    PyData :=
  let audio := buildOpenaiAudioObject audioUuid normalized.audioWavBase64 normalized.content
  let content : PyData :=
    if audio.truthy && normalized.content.isEmpty then .none else .str normalized.content
  generateNoStreamResponse calls.toBuilderCalls
    { calls.base with
      content := content
      toolsId := optionText normalized.functionCall.callId
      functionCallName := optionText normalized.functionCall.name
      functionCallContent := normalized.functionCall.arguments
      role := lit "assistant"
      counts := counts.usage
      reasoningContent := .str normalized.reasoningContent }
    { imageBase64 := .str (normalized.imageBase64.getD []), audio := audio }

/-- `_yield_gemini_chat_completion`, of the JSON value of the response. -/
def yieldGeminiChatCompletion (event : GeminiEvent) : Except StreamError PyData := do
  let parsedData ← parseProviderJsonResponse event.response
  let partsList := calls.safeGet parsedData [0, "candidates", 0, "content", "parts"] (.list [])
  let normalized ← normalizeGeminiParts calls event.callUuid (partsList.asList.getD [])
  let usageMetadata := calls.safeGet parsedData [.index (-1), "usageMetadata"] .none
  let counts := geminiCounts fun name => calls.coerce (calls.safeGet usageMetadata [name] (.int 0))
  return geminiCompletion calls event.audioUuid normalized counts

end Stream

/-! ### Parts and their responses -/

/-- A function call. It has a name, and its arguments came from a JSON text. -/
structure GeminiCallPart (codec : JsonCodec) where
  name : PyText
  args : Option (List (String × PyData))
  signature : Option PyText
  hasName : name ≠ []
  written : ∀ members, args = some members → ∃ text, codec.loads text = some (.dict members)

/-- A part of a response. -/
inductive GeminiPart (codec : JsonCodec) where
  | text (text : PyText)
  | thought (text : PyText)
  | call (call : GeminiCallPart codec)

namespace GeminiPart

variable {codec : JsonCodec}

def json : GeminiPart codec → PyData
  | .text words => .dict [("text", .str words)]
  | .thought words => .dict [("text", .str words), ("thought", .bool true)]
  | .call made => .dict (("functionCall", .dict (("name", .str made.name)
        :: (made.args.map fun members => ("args", PyData.dict members)).toList))
      :: (made.signature.map fun signature => ("thoughtSignature", PyData.str signature)).toList)

def textPart : GeminiPart codec → PyText
  | .text words => words
  | _ => []

def thoughtPart : GeminiPart codec → PyText
  | .thought words => words
  | _ => []

def isThought : GeminiPart codec → Bool
  | .thought _ => true
  | _ => false

def call? : GeminiPart codec → Option (GeminiCallPart codec)
  | .call made => some made
  | _ => none

end GeminiPart

namespace GeminiCallPart

variable {codec : JsonCodec} (call : GeminiCallPart codec)

/-- The id of the call. -/
def callId (uuid : PyText) : Except StreamError (Option PyText) :=
  functionCallId uuid (optionText call.signature)

/-- Whether the call has an id, if its signature is accepted. -/
def signed : Except StreamError Bool := (call.callId []).map Option.isSome

/-- The arguments as `safe_get` gives them. -/
def arguments (calls : StreamCalls) : PyData :=
  match call.args with
  | none => .none
  | some members => givenDict calls members

end GeminiCallPart

section Normal

variable {calls : GeminiCalls}

/-- The first call of parts. -/
def firstCall (parts : List (GeminiPart calls.json)) : Option (GeminiCallPart calls.json) :=
  (parts.filterMap GeminiPart.call?).head?

/-- The normal form of parts in front of a call, or behind it. -/
def GeminiPartsNormalization.reading (result : GeminiPartsNormalization)
    (parts : List (GeminiPart calls.json)) : GeminiPartsNormalization :=
  { result with
    content := result.content ++ parts.flatMap GeminiPart.textPart
    reasoningContent := result.reasoningContent ++ parts.flatMap GeminiPart.thoughtPart
    isThinking := result.isThinking || parts.any GeminiPart.isThought }

theorem withText_eq {part : PyData} {words : PyText} {thinks : Bool} (result : GeminiPartsNormalization)
    (leads : Leads part ["text"] words)
    (thought : (calls.safeGet part ["thought"] (.bool false)).truthy = thinks) :
    withText calls result part = { result with
      content := result.content ++ if thinks then [] else words
      reasoningContent := result.reasoningContent ++ if thinks then words else []
      isThinking := result.isThinking || thinks } := by
  rw [withText, thought]
  by_cases empty : words = []
  · subst empty
    have falsy : (calls.safeGet part ["text"] .none).truthy = false := by
      rcases leads with found | ⟨lost, -⟩
      · show PyData.truthy (PyData.safeGet _ _ _ _) = false
        rw [PyData.safeGet, found]
        dsimp only
        split <;> rfl
      · rw [StreamCalls.safeGet, PyData.safeGet_of_none lost]
        rfl
    rw [falsy]
    simp
  · have found : part.follow ["text"] = some (.str words) := leads.resolve_right fun lost => empty lost.2
    have isText : calls.safeGet part ["text"] .none = .str words :=
      PyData.safeGet_of_truthy found ((PyData.truthy_str words).mpr empty)
    rw [isText, (PyData.truthy_str words).mpr empty]
    cases thinks with
    | false => simp [strOf]
    | true => simp [strOf]

theorem partInlineData_none {part : PyData} (noInline : part.part "inlineData" = none)
    (noInline' : part.part "inline_data" = none) : partInlineData calls part = none := by
  have first : calls.safeGet part ["inlineData", "mimeType"] .none = .none :=
    PyData.safeGet_of_none (by rw [PyData.follow, noInline]; rfl)
  have second : calls.safeGet part ["inline_data", "mime_type"] .none = .none :=
    PyData.safeGet_of_none (by rw [PyData.follow, noInline']; rfl)
  rw [partInlineData, safeGetEither, first, second]
  rfl

theorem normalizePart_eq (uuid : PyText) (result : GeminiPartsNormalization) (part : GeminiPart calls.json)
    (noInline : part.json.part "inlineData" = none) (noInline' : part.json.part "inline_data" = none) :
    normalizePart calls uuid result part.json
      = withCall calls uuid (withText calls result part.json) part.json := by
  have noData := @partInlineData_none calls _ noInline noInline'
  cases part <;>
  · rw [GeminiPart.json] at noData ⊢
    rw [normalizePart, noData]
    rfl

theorem normalizePart_noCall (uuid : PyText) (result : GeminiPartsNormalization)
    {part : GeminiPart calls.json} (noCall : part.call? = none) :
    normalizePart calls uuid result part.json = .ok (result.reading [part]) := by
  have noName : ∀ data, PyData.follow data ["functionCall", "name"] = none →
      calls.safeGet data ["functionCall", "name"] .none = .none := fun _ lost => PyData.safeGet_of_none lost
  cases part with
  | text words =>
    have thought : (calls.safeGet (GeminiPart.text words : GeminiPart calls.json).json ["thought"]
        (.bool false)).truthy = false := by
      rw [StreamCalls.safeGet, PyData.safeGet_of_none rfl]
      rfl
    rw [normalizePart_eq uuid result _ rfl rfl, withText_eq result (.inl rfl) thought,
      withCall, noName _ rfl]
    simp [GeminiPartsNormalization.reading, GeminiPart.textPart, GeminiPart.thoughtPart,
      GeminiPart.isThought]
    rfl
  | thought words =>
    have thought : (calls.safeGet (GeminiPart.thought words : GeminiPart calls.json).json ["thought"]
        (.bool false)).truthy = true := by
      rw [StreamCalls.safeGet, PyData.safeGet_of_truthy rfl rfl]
      rfl
    rw [normalizePart_eq uuid result _ rfl rfl, withText_eq result (.inl rfl) thought,
      withCall, noName _ rfl]
    simp [GeminiPartsNormalization.reading, GeminiPart.textPart, GeminiPart.thoughtPart,
      GeminiPart.isThought]
    rfl
  | call made => cases noCall

theorem functionCallId_either (uuid : PyText) (made : GeminiCallPart calls.json) :
    functionCallId uuid (safeGetEither calls (GeminiPart.call made).json ["thoughtSignature"]
      ["thought_signature"]) = made.callId uuid := by
  have other : calls.safeGet (GeminiPart.call made).json ["thought_signature"] .none = .none := by
    refine PyData.safeGet_of_none ?_
    rw [GeminiPart.json]
    cases made.signature <;> rfl
  rw [safeGetEither, other, GeminiCallPart.callId]
  cases isSigned : made.signature with
  | none =>
    have lost : calls.safeGet (GeminiPart.call made).json ["thoughtSignature"] .none = .none := by
      refine PyData.safeGet_of_none ?_
      rw [GeminiPart.json, isSigned]
      rfl
    rw [lost]
    rfl
  | some signature =>
    have found : (GeminiPart.call made).json.follow ["thoughtSignature"] = some (.str signature) := by
      rw [GeminiPart.json, isSigned]
      rfl
    have isText : (calls.safeGet (GeminiPart.call made).json ["thoughtSignature"] .none).text = signature :=
      PyData.text_safeGet found .none rfl
    by_cases empty : signature = []
    · subst empty
      have falsy : (calls.safeGet (GeminiPart.call made).json ["thoughtSignature"] .none).truthy
          = false := by
        show PyData.truthy (PyData.safeGet _ _ _ _) = false
        rw [PyData.safeGet, found]
        dsimp only
        split <;> rfl
      rw [falsy]
      rfl
    · rw [show calls.safeGet (GeminiPart.call made).json ["thoughtSignature"] .none = .str signature from
        PyData.safeGet_of_truthy found ((PyData.truthy_str signature).mpr empty)]
      rw [(PyData.truthy_str signature).mpr empty]
      rfl

theorem args_given (made : GeminiCallPart calls.json) :
    calls.safeGet (GeminiPart.call made).json ["functionCall", "args"] .none
      = made.arguments calls.toStreamCalls := by
  rw [GeminiCallPart.arguments]
  cases hasArgs : made.args with
  | none =>
    refine PyData.safeGet_of_none ?_
    rw [GeminiPart.json, hasArgs]
    rfl
  | some members =>
    refine safeGet_dict ?_
    rw [GeminiPart.json, hasArgs]
    rfl

/-- The normal form of a call. -/
def calledForm (made : GeminiCallPart calls.json) (callId : Option PyText) : GeminiFunctionCall where
  name := some made.name
  arguments := made.arguments calls.toStreamCalls
  callId := callId

theorem normalizePart_call (uuid : PyText) (result : GeminiPartsNormalization)
    (made : GeminiCallPart calls.json) :
    normalizePart calls uuid result (GeminiPart.call made).json
      = withCall calls uuid (result.reading [GeminiPart.call made]) (GeminiPart.call made).json := by
  have lost : ∀ name ∈ ["text", "thought", "inlineData", "inline_data"],
      (GeminiPart.call made).json.part name = none := by
    intro name among
    rw [GeminiPart.json]
    simp only [List.mem_cons, List.not_mem_nil, or_false] at among
    rcases among with rfl | rfl | rfl | rfl <;> cases made.signature <;> rfl
  have noText : (GeminiPart.call made).json.follow ["text"] = none := by
    rw [PyData.follow, lost "text" (by decide)]
    rfl
  have thought : (calls.safeGet (GeminiPart.call made).json ["thought"] (.bool false)).truthy = false := by
    rw [StreamCalls.safeGet, PyData.safeGet_of_none
      (by rw [PyData.follow, lost "thought" (by decide)]; rfl)]
    rfl
  rw [normalizePart_eq uuid result _ (lost "inlineData" (by decide)) (lost "inline_data" (by decide)),
    withText_eq result (.inr ⟨noText, rfl⟩) thought]
  simp [GeminiPartsNormalization.reading, GeminiPart.textPart, GeminiPart.thoughtPart, GeminiPart.isThought]

theorem name_given (made : GeminiCallPart calls.json) :
    calls.safeGet (GeminiPart.call made).json ["functionCall", "name"] .none = .str made.name :=
  PyData.safeGet_of_truthy rfl ((PyData.truthy_str made.name).mpr made.hasName)

/-- The first call is taken. -/
theorem normalizePart_first (uuid : PyText) {result : GeminiPartsNormalization}
    (none_ : result.functionCall.name = none) (made : GeminiCallPart calls.json) :
    normalizePart calls uuid result (GeminiPart.call made).json
      = (made.callId uuid).map fun callId =>
        { result.reading [GeminiPart.call made] with functionCall := calledForm made callId } := by
  have unnamed : ((result.reading [GeminiPart.call made]).functionCall.name.getD []).isEmpty = true := by
    show (result.functionCall.name.getD []).isEmpty = true
    rw [none_]
    rfl
  rw [normalizePart_call, withCall, name_given, unnamed, (PyData.truthy_str made.name).mpr made.hasName,
    args_given]
  show functionCallId uuid (safeGetEither calls (GeminiPart.call made).json ["thoughtSignature"]
    ["thought_signature"]) >>= _ = _
  rw [functionCallId_either]
  cases made.callId uuid <;> rfl

theorem normalizePart_later (uuid : PyText) {result : GeminiPartsNormalization}
    (some_ : result.functionCall.name.getD [] ≠ []) (made : GeminiCallPart calls.json) :
    normalizePart calls uuid result (GeminiPart.call made).json
      = .ok (result.reading [GeminiPart.call made]) := by
  have named : ((result.reading [GeminiPart.call made]).functionCall.name.getD []).isEmpty = false := by
    rw [List.isEmpty_eq_false_iff]
    exact some_
  rw [normalizePart_call, withCall, named, Bool.and_false]
  rfl

theorem normalize_later (uuid : PyText) (parts : List (GeminiPart calls.json))
    {result : GeminiPartsNormalization} (some_ : result.functionCall.name.getD [] ≠ []) :
    (parts.map GeminiPart.json).foldlM (normalizePart calls uuid) result = .ok (result.reading parts) := by
  induction parts generalizing result with
  | nil => simp [GeminiPartsNormalization.reading]; rfl
  | cons part parts ih =>
    have first : normalizePart calls uuid result part.json = .ok (result.reading [part]) := by
      cases isCall : part.call? with
      | none => exact normalizePart_noCall uuid result isCall
      | some made =>
        cases part with
        | call same => exact normalizePart_later uuid some_ same
        | _ => cases isCall
    rw [List.map_cons, List.foldlM_cons, first]
    show (parts.map GeminiPart.json).foldlM (normalizePart calls uuid) (result.reading [part]) = _
    rw [@ih (result.reading [part]) some_]
    simp [GeminiPartsNormalization.reading, Bool.or_assoc]

/-- The texts are read, and the first call is taken. -/
theorem normalize_from (uuid : PyText) (parts : List (GeminiPart calls.json))
    {result : GeminiPartsNormalization} (none_ : result.functionCall.name = none) :
    (parts.map GeminiPart.json).foldlM (normalizePart calls uuid) result =
      match firstCall parts with
      | none => .ok (result.reading parts)
      | some made => (made.callId uuid).map fun callId =>
        { result.reading parts with functionCall := calledForm made callId } := by
  induction parts generalizing result with
  | nil => simp [GeminiPartsNormalization.reading, firstCall]; rfl
  | cons part parts ih =>
    rw [List.map_cons, List.foldlM_cons]
    cases isCall : part.call? with
    | none =>
      have first : firstCall (part :: parts) = firstCall parts := by
        rw [firstCall, List.filterMap_cons, isCall]
        rfl
      rw [normalizePart_noCall uuid result isCall, first]
      show (parts.map GeminiPart.json).foldlM (normalizePart calls uuid) (result.reading [part]) = _
      rw [@ih (result.reading [part]) none_]
      simp [GeminiPartsNormalization.reading, Bool.or_assoc]
    | some made =>
      obtain rfl : part = .call made := by
        cases part with
        | call same => rw [show same = made from Option.some.inj isCall]
        | _ => cases isCall
      have first : firstCall (.call made :: parts) = some made := rfl
      rw [normalizePart_first uuid none_, first]
      dsimp only
      cases made.callId uuid with
      | error error => rfl
      | ok callId =>
        show (parts.map GeminiPart.json).foldlM (normalizePart calls uuid)
          { result.reading [GeminiPart.call made] with functionCall := calledForm made callId } = _
        rw [normalize_later uuid parts (show (some made.name).getD [] ≠ [] from made.hasName)]
        simp [GeminiPartsNormalization.reading, Bool.or_assoc]
        rfl

/-- **The normal form of parts.** -/
theorem normalize_parts (uuid : PyText) (parts : List (GeminiPart calls.json)) :
    normalizeGeminiParts calls uuid (parts.map GeminiPart.json) =
      match firstCall parts with
      | none => .ok (GeminiPartsNormalization.reading {} parts)
      | some made => (made.callId uuid).map fun callId =>
        { GeminiPartsNormalization.reading {} parts with functionCall := calledForm made callId } :=
  normalize_from uuid parts rfl

end Normal

/-! ### Streams of responses -/

/-- A streamed response, with the digits of the random ids that are drawn while it is handled. -/
structure GeminiChunk (codec : JsonCodec) where
  parts : List (GeminiPart codec)
  usage : Option (List (String × PyData))
  callUuid : PyText
  audioUuid : PyText

/-- A response with these parts. -/
def geminiResponse {codec : JsonCodec} (parts : List (GeminiPart codec)) (finishReason : Option PyText)
    (usage : Option (List (String × PyData))) : PyData :=
  .dict (("candidates", .list [.dict (("content", .dict [("parts", .list (parts.map GeminiPart.json)),
        ("role", lit "model")])
      :: (finishReason.map fun reason => ("finishReason", PyData.str reason)).toList)])
    :: (usage.map fun members => ("usageMetadata", PyData.dict members)).toList)

/-- The event of a streamed response. -/
def GeminiChunk.event {codec : JsonCodec} (chunk : GeminiChunk codec) (finishReason : Option PyText) :
    GeminiEvent :=
  ⟨geminiResponse chunk.parts finishReason chunk.usage, chunk.callUuid, chunk.audioUuid⟩

/-- Streamed responses, of which the last one has a finish reason and counts. -/
structure GeminiStream (codec : JsonCodec) where
  earlier : List (GeminiChunk codec)
  last : GeminiChunk codec
  finishReason : PyText
  usage : List (String × PyData)
  finishes : finishReason ≠ []
  counted : last.usage = some usage

namespace GeminiStream

variable {codec : JsonCodec} (stream : GeminiStream codec)

def chunks : List (GeminiChunk codec) := stream.earlier ++ [stream.last]

/-- The parts of all responses. -/
def parts : List (GeminiPart codec) := stream.chunks.flatMap GeminiChunk.parts

/-- The events of the stream. -/
def events : List GeminiEvent :=
  stream.earlier.map (·.event none) ++ [stream.last.event (some stream.finishReason)]

/-- The response that has all parts. -/
def message : PyData := geminiResponse stream.parts (some stream.finishReason) (some stream.usage)

end GeminiStream

section Chunks

variable {calls : GeminiCalls}

/-- The JSON of the arguments of a call, and no letter if it has none. -/
def GeminiCallPart.argumentsText (made : GeminiCallPart calls.json) : PyText :=
  match made.arguments calls.toStreamCalls with
  | .none => []
  | arguments => calls.json.dumps arguments

/-- The deltas of a call. -/
def GeminiCallPart.deltas (made : GeminiCallPart calls.json) (uuid : PyText) : List PyData :=
  (match made.callId uuid with
    | .ok (some id) => [Client.headerDelta id made.name]
    | _ => [])
  ++ if made.argumentsText = [] then [] else [Client.argumentsDelta made.argumentsText]

/-- The deltas of a streamed response: those of its first call. -/
def GeminiChunk.toolDeltas (chunk : GeminiChunk calls.json) : List PyData :=
  ((firstCall chunk.parts).map fun made => made.deltas chunk.callUuid).getD []

/-- The normal form of a streamed response. -/
def GeminiChunk.normalized (chunk : GeminiChunk calls.json) : Except StreamError GeminiPartsNormalization :=
  normalizeGeminiParts calls chunk.callUuid (chunk.parts.map GeminiPart.json)

/-- The counts of a response. -/
def countsOfUsage (calls : GeminiCalls) (usage : List (String × PyData)) : GeminiCounts :=
  geminiCounts fun name => calls.coerce ((usage.lookup name).getD (.int 0))

theorem asList_safeGet {data : PyData} {keys : List PyKey} {items : List PyData}
    (found : data.follow keys = some (.list items)) :
    ((calls.safeGet data keys (.list [])).asList).getD [] = items := by
  show ((PyData.safeGet _ _ _ _).asList).getD [] = _
  rw [PyData.safeGet, found]
  cases items with
  | nil => simp [PyData.asList]
  | cons => rfl

/-- The content of a response. -/
def geminiContent (parts : List (GeminiPart calls.json)) : PyData :=
  .dict [("parts", .list (parts.map GeminiPart.json)), ("role", lit "model")]

/-- What is made of a response. -/
theorem geminiJsonPoccess_eq {event : GeminiEvent} {parts : List (GeminiPart calls.json)}
    {finishReason : PyData} {counts : GeminiCounts}
    (content : calls.safeGet event.response ["candidates", 0, "content"] .none = geminiContent parts)
    (finish : calls.safeGet event.response ["candidates", 0, "finishReason"] .none = finishReason)
    (counted : (match event.response.part "usageMetadata" with
      | some (.dict usage) => if finishReason.truthy then countsOfUsage calls usage else {}
      | _ => {}) = counts) :
    geminiJsonPoccess calls event
      = (normalizeGeminiParts calls event.callUuid (parts.map GeminiPart.json)).map fun normalized =>
        ⟨normalized, finishReason, .none, counts⟩ := by
  have noReason : calls.safeGet (geminiContent parts) [0, "promptFeedback", "blockReason"] .none = .none :=
    PyData.safeGet_of_none rfl
  have partsList : ((calls.safeGet (geminiContent parts) ["parts"] (.list [])).asList).getD []
      = parts.map GeminiPart.json := asList_safeGet rfl
  rw [geminiJsonPoccess, content, finish, noReason]
  dsimp only
  rw [partsList]
  subst counted
  cases normalizeGeminiParts calls event.callUuid (parts.map GeminiPart.json) <;> rfl

/-- What is made of a streamed response without a finish reason. -/
theorem geminiJsonPoccess_earlier (chunk : GeminiChunk calls.json) :
    geminiJsonPoccess calls (chunk.event none)
      = chunk.normalized.map fun normalized => ⟨normalized, .none, .none, {}⟩ := by
  refine geminiJsonPoccess_eq (PyData.safeGet_of_truthy rfl rfl) (PyData.safeGet_of_none rfl) ?_
  rw [GeminiChunk.event, geminiResponse]
  cases chunk.usage <;> rfl

theorem geminiJsonPoccess_last (stream : GeminiStream calls.json) :
    geminiJsonPoccess calls (stream.last.event (some stream.finishReason))
      = stream.last.normalized.map fun normalized =>
        ⟨normalized, .str stream.finishReason, .none, countsOfUsage calls stream.usage⟩ := by
  have finishes := (PyData.truthy_str stream.finishReason).mpr stream.finishes
  refine geminiJsonPoccess_eq (PyData.safeGet_of_truthy rfl rfl) (PyData.safeGet_of_truthy rfl finishes) ?_
  rw [GeminiChunk.event, geminiResponse, stream.counted, finishes]
  rfl

/-- The texts of a response. -/
def textParts (parts : List (GeminiPart calls.json)) : Parts where
  content := parts.flatMap GeminiPart.textPart
  reasoning := parts.flatMap GeminiPart.thoughtPart

theorem isThinking_of_thought {parts : List (GeminiPart calls.json)}
    (some_ : parts.flatMap GeminiPart.thoughtPart ≠ []) : parts.any GeminiPart.isThought = true := by
  by_contra none_
  refine some_ (List.flatMap_eq_nil_iff.mpr fun part among => ?_)
  have isNone : part.isThought ≠ true := fun isThought => none_
      (List.any_eq_true.mpr ⟨part, among, isThought⟩)
  cases part with
  | thought words => exact absurd rfl isNone
  | _ => rfl

theorem sendTexts_adds (parts : List (GeminiPart calls.json)) (call : GeminiFunctionCall) :
    Returns (sendTexts calls { GeminiPartsNormalization.reading {} parts with functionCall := call }) ()
      (textParts parts) := by
  have thinks : Returns (sendSseIf (parts.any GeminiPart.isThought
      && !(parts.flatMap GeminiPart.thoughtPart).isEmpty) calls.toBuilderCalls
      { calls.base with reasoningContent := .str (parts.flatMap GeminiPart.thoughtPart) }) ()
      { reasoning := parts.flatMap GeminiPart.thoughtPart } := by
    refine Returns.sseIf _ _ rfl ?_
    by_cases empty : parts.flatMap GeminiPart.thoughtPart = []
    · rw [empty, List.isEmpty_nil, Bool.not_true, Bool.and_false]
      rfl
    · rw [isThinking_of_thought empty, List.isEmpty_eq_false_iff.mpr empty]
      exact Client.deltaParts_reasoning calls.timestamp calls.model empty
  have speaks : Returns (sendSseIf (true && !(parts.flatMap GeminiPart.textPart).isEmpty)
      calls.toBuilderCalls { calls.base with content := .str (parts.flatMap GeminiPart.textPart) }) ()
      { content := parts.flatMap GeminiPart.textPart } := by
    refine Returns.sseIf _ _ rfl ?_
    by_cases empty : parts.flatMap GeminiPart.textPart = []
    · rw [empty]
      rfl
    · rw [List.isEmpty_eq_false_iff.mpr empty]
      exact Client.deltaParts_content calls.timestamp calls.model empty
  have both : textParts parts = { reasoning := parts.flatMap GeminiPart.thoughtPart }
      ++ ({ content := parts.flatMap GeminiPart.textPart } : Parts) := by
    show _ = Parts.mk _ (_ ++ []) _ _
    rw [List.append_nil]
    rfl
  rw [both, sendTexts]
  exact thinks.bind speaks

theorem functionCallId_ne {uuid id : PyText} {signature : PyData}
    (isId : functionCallId uuid signature = .ok (some id)) : id ≠ [] := by
  cases signature with
  | str words =>
    rw [functionCallId] at isId
    cases empty : words.isEmpty with
    | true =>
      rw [empty] at isId
      cases isId
    | false =>
      rw [empty] at isId
      cases size : boundedUtf8Size words thoughtSignatureMaxBytes with
      | error error =>
        rw [size] at isId
        cases isId
      | ok observed =>
        rw [size] at isId
        change (if thoughtSignatureMaxBytes < observed then _ else _) = _ at isId
        split at isId
        · cases isId
        · split at isId
          · cases isId
          · cases isId
            simp [Utf8.points]
  | _ => cases isId

/-- Whether there is an id does not depend on the random digits. -/
theorem functionCallId_signed (uuid : PyText) (signature : PyData) :
    (functionCallId uuid signature).map Option.isSome =
      (functionCallId [] signature).map Option.isSome := by
  cases signature with
  | str words =>
    rw [functionCallId, functionCallId]
    cases words.isEmpty with
    | true => rfl
    | false =>
      cases boundedUtf8Size words thoughtSignatureMaxBytes with
      | error error => rfl
      | ok observed =>
        show ((if thoughtSignatureMaxBytes < observed then _ else _) : Except _ _).map _
          = ((if thoughtSignatureMaxBytes < observed then _ else _) : Except _ _).map _
        split
        · rfl
        · cases Utf8.encodePoints words <;> rfl
  | _ => rfl

theorem arguments_cases (made : GeminiCallPart calls.json) :
    made.arguments calls.toStreamCalls = .none ∨
      ∃ members, made.arguments calls.toStreamCalls = .dict members ∧
        calls.json.loads (calls.json.dumps (.dict members)) = some (.dict members) := by
  rw [GeminiCallPart.arguments]
  cases hasArgs : made.args with
  | none => exact .inl rfl
  | some members =>
    dsimp only
    rw [givenDict]
    split
    · obtain ⟨text, reads⟩ := made.written members hasArgs
      exact .inr ⟨members, rfl, calls.json.loads_dumps text _ reads⟩
    · exact .inl rfl

/-- The text of the arguments is that of the object, or empty. -/
theorem argumentsText_cases (made : GeminiCallPart calls.json) :
    made.arguments calls.toStreamCalls = .none ∧ made.argumentsText = [] ∨
      ∃ members, made.arguments calls.toStreamCalls = .dict members ∧
        made.argumentsText = calls.json.dumps (.dict members) ∧
        calls.json.loads made.argumentsText = some (.dict members) := by
  rcases arguments_cases made with none_ | ⟨members, isDict, reads⟩
  · exact .inl ⟨none_, by rw [GeminiCallPart.argumentsText, none_]⟩
  · have text : made.argumentsText = calls.json.dumps (.dict members) := by
      rw [GeminiCallPart.argumentsText, isDict]
    exact .inr ⟨members, isDict, text, by rw [text]; exact reads⟩

theorem sendCall_none : Returns (sendCall calls { name := none }) () {} := by
  show Returns (sendSseIf false calls.toBuilderCalls _ _ >>= fun _ =>
      sendSseIf false calls.toBuilderCalls _ _)
    () ({} ++ {})
  exact (Returns.pure ()).bind (Returns.pure ())

variable {made : GeminiCallPart calls.json} {chunk : GeminiChunk calls.json}

theorem sendCall_adds {uuid : PyText} {callId : Option PyText}
    (isId : made.callId uuid = .ok callId) :
    Returns (sendCall calls (calledForm made callId)) () { toolDeltas := made.deltas uuid } := by
  have named := (PyData.truthy_str made.name).mpr made.hasName
  have headers : Returns (sendSseIf (optionText (some made.name)).truthy calls.toBuilderCalls
      { calls.base with toolsId := optionText callId, functionCallName := optionText (some made.name) }) ()
      { toolDeltas := match made.callId uuid with
        | .ok (some id) => [Client.headerDelta id made.name]
        | _ => [] } := by
    refine Returns.sseIf _ _ rfl ?_
    rw [show (optionText (some made.name)).truthy = true from named, isId]
    cases callId with
    | none => rfl
    | some id =>
      exact Client.deltaParts_header calls.timestamp calls.model (functionCallId_ne isId) made.hasName
  have argues : Returns (sendSseIf (optionText (argumentsJson calls (calledForm made callId))).truthy
      calls.toBuilderCalls { calls.base with
        toolsId := optionText callId
        functionCallContent := optionText (argumentsJson calls (calledForm made callId)) }) ()
      { toolDeltas := if made.argumentsText = [] then [] else
        [Client.argumentsDelta made.argumentsText] } := by
    refine Returns.sseIf _ _ rfl ?_
    rcases argumentsText_cases made with ⟨none_, empty⟩ | ⟨members, isDict, text, reads⟩
    · rw [argumentsJson, show (calledForm made callId).arguments = .none from none_, empty]
      rfl
    · have some_ : made.argumentsText ≠ [] := by
        intro empty
        rw [empty, calls.json.loads_nil] at reads
        cases reads
      have isJson : argumentsJson calls (calledForm made callId) = some made.argumentsText := by
        rw [argumentsJson, show (calledForm made callId).arguments = .dict members from isDict, text]
      rw [isJson, show (optionText (some made.argumentsText)).truthy = true from
        (PyData.truthy_str _).mpr some_, if_neg some_]
      exact Client.deltaParts_arguments calls.timestamp calls.model _ some_
  exact @Returns.bind Unit Unit _ _ _ (fun _ => sendSseIf _ _ _ _) () () headers argues

/-- The signature of the first call is accepted, if there is a call. -/
def GeminiChunk.Accepted (chunk : GeminiChunk calls.json) : Prop :=
  ∀ made, firstCall chunk.parts = some made → ∃ isSigned, made.signed = .ok isSigned

theorem signed_of_callId {uuid : PyText} {callId : Option PyText}
    (isId : made.callId uuid = .ok callId) : made.signed = .ok callId.isSome := by
  rw [GeminiCallPart.signed, GeminiCallPart.callId, ← functionCallId_signed uuid,
    ← GeminiCallPart.callId, isId]
  rfl

theorem callId_of_signed {isSigned : Bool} (signed : made.signed = .ok isSigned) (uuid : PyText) :
    ∃ callId, made.callId uuid = .ok callId ∧ callId.isSome = isSigned := by
  cases isId : made.callId uuid with
  | ok callId =>
    rw [signed_of_callId isId] at signed
    exact ⟨callId, rfl, Except.ok.inj signed⟩
  | error error =>
    rw [GeminiCallPart.signed, GeminiCallPart.callId, ← functionCallId_signed uuid,
      ← GeminiCallPart.callId, isId] at signed
    cases signed

/-- What is made of the parts of a response whose signature is accepted. -/
theorem GeminiChunk.normalized_of_accepted (accepted : chunk.Accepted) :
    ∃ call, chunk.normalized
        = .ok { GeminiPartsNormalization.reading {} chunk.parts with functionCall := call } ∧
      Returns (sendCall calls call) () { toolDeltas := chunk.toolDeltas } := by
  rw [GeminiChunk.normalized, normalize_parts, GeminiChunk.toolDeltas]
  cases isFirst : firstCall chunk.parts with
  | none => exact ⟨{ name := none }, rfl, sendCall_none⟩
  | some made =>
    obtain ⟨isSigned, signed⟩ := accepted made isFirst
    obtain ⟨callId, isId, -⟩ := callId_of_signed signed chunk.callUuid
    refine ⟨calledForm made callId, ?_, sendCall_adds isId⟩
    dsimp only
    rw [isId]
    rfl

theorem GeminiChunk.normalized_of_refused (refused : ¬ chunk.Accepted) :
    ∃ error, chunk.normalized = .error error := by
  rw [GeminiChunk.Accepted] at refused
  push Not at refused
  obtain ⟨made, isFirst, unsigned⟩ := refused
  rw [GeminiChunk.normalized, normalize_parts, isFirst]
  cases isId : made.callId chunk.callUuid with
  | ok callId => exact absurd (signed_of_callId isId) (unsigned _)
  | error error =>
    refine ⟨error, ?_⟩
    dsimp only
    rw [isId]
    rfl

/-- What a response adds. -/
def GeminiChunk.added (chunk : GeminiChunk calls.json) : Parts where
  content := chunk.parts.flatMap GeminiPart.textPart
  reasoning := chunk.parts.flatMap GeminiPart.thoughtPart
  toolDeltas := chunk.toolDeltas

/-- What a response sends before its finish reason is looked at. -/
theorem sends_chunk {call : GeminiFunctionCall} {α : Type}
    {rest : Sending α} {value : α} (event : GeminiEvent) (finishReason blockReason : PyData)
    (counts : GeminiCounts) (sends : Returns (sendCall calls call) () { toolDeltas := chunk.toolDeltas })
    (ends : Returns rest value {}) :
    Returns (do
      sendTexts calls { GeminiPartsNormalization.reading {} chunk.parts with functionCall := call }
      sendMedia calls event
        ⟨{ GeminiPartsNormalization.reading {} chunk.parts with functionCall := call }, finishReason,
          blockReason, counts⟩
      sendCall calls call
      rest) value chunk.added := by
  have noMedia : Returns (sendMedia calls event
      ⟨{ GeminiPartsNormalization.reading {} chunk.parts with functionCall := call }, finishReason,
        blockReason, counts⟩) () {} := Returns.pure ()
  have same : chunk.added
      = textParts chunk.parts ++ ({} ++ ({ toolDeltas := chunk.toolDeltas } ++ ({} : Parts))) := by
    show Parts.mk _ _ _ _ = Parts.mk (_ ++ []) (_ ++ []) (_ ++ []) _
    simp only [List.append_nil]
    rfl
  rw [same]
  exact Returns.bind (sendTexts_adds chunk.parts call) (Returns.bind noMedia (Returns.bind sends ends))

theorem sendStop_adds (words : String) (some_ : (Utf8.points words).isEmpty = false) :
    Returns (sendSse calls.toBuilderCalls calls.base (lit words)) () {} := by
  have built : generateSseResponse calls.toBuilderCalls calls.base (lit words)
      = some (chunkData calls.toBuilderCalls calls.base [chunkChoice (.dict []) (lit words)]) := by
    have isTrue : (lit words).truthy = true := by
      show (!(Utf8.points words).isEmpty) = true
      rw [some_]
      rfl
    rw [generateSseResponse, isTrue]
    rfl
  rw [sendSse, built]
  have adds := Returns.send (.chunk (chunkData calls.toBuilderCalls calls.base
    [chunkChoice (.dict []) (lit words)]))
  rwa [show partsOf [.chunk (chunkData calls.toBuilderCalls calls.base
    [chunkChoice (.dict []) (lit words)])]
    = {} from Client.parts_choice _ _ _ _ rfl] at adds

theorem geminiEvent_earlier (accepted : chunk.Accepted) :
    Returns (geminiEvent calls {} (chunk.event none)) ({}, false) chunk.added := by
  obtain ⟨call, isForm, sends⟩ := GeminiChunk.normalized_of_accepted accepted
  intro sent
  obtain ⟨items, runs, parts⟩ := sends_chunk (chunk.event none) .none .none {} sends
    (Returns.pure (({}, false) : GeminiState × Bool)) sent
  refine ⟨items, ?_, parts⟩
  rw [geminiEvent, Raise.bind_apply, geminiJsonPoccess_earlier, isForm]
  exact runs

theorem geminiEvent_last (stream : GeminiStream calls.json) (accepted : stream.last.Accepted) :
    Returns (geminiEvent calls {} (stream.last.event (some stream.finishReason)))
      (⟨countsOfUsage calls stream.usage, true⟩, true) stream.last.added := by
  obtain ⟨call, isForm, sends⟩ := GeminiChunk.normalized_of_accepted accepted
  obtain ⟨letter, letters, isReason⟩ := List.exists_cons_of_ne_nil stream.finishes
  have stops := (@sendStop_adds calls "stop" (by decide)).bind_pure
    ((⟨countsOfUsage calls stream.usage, true⟩, true) : GeminiState × Bool)
  intro sent
  obtain ⟨items, runs, parts⟩ := sends_chunk (stream.last.event (some stream.finishReason))
    (.str stream.finishReason) .none (countsOfUsage calls stream.usage) sends stops sent
  refine ⟨items, ?_, parts⟩
  rw [geminiEvent, Raise.bind_apply, geminiJsonPoccess_last, isForm]
  rw [isReason] at runs ⊢
  exact runs

theorem geminiEvent_refused {event : GeminiEvent} {error : StreamError} (state : GeminiState)
    (raises : geminiJsonPoccess calls event = .error error) (sent : List Sent) :
    geminiEvent calls state event sent = (.error error, sent) := by
  rw [geminiEvent, Raise.bind_apply, raises]
  rfl

/-- What the responses add together. -/
def addedOf : List (GeminiChunk calls.json) → Parts
  | [] => {}
  | chunk :: chunks => chunk.added ++ addedOf chunks

theorem earlier_collect (chunks : List (GeminiChunk calls.json))
    (accepted : ∀ chunk ∈ chunks, chunk.Accepted) :
    Collects (geminiEvent calls) {} (chunks.map (·.event none)) (addedOf chunks) := by
  induction chunks with
  | nil => exact .nil
  | cons chunk chunks ih =>
    exact .cons (geminiEvent_earlier (accepted chunk List.mem_cons_self))
      (ih fun later among => accepted later (List.mem_cons_of_mem _ among))

theorem addedOf_append (first second : List (GeminiChunk calls.json)) :
    addedOf (first ++ second) = addedOf first ++ addedOf second := by
  induction first with
  | nil => rfl
  | cons chunk chunks ih => rw [List.cons_append, addedOf, ih, addedOf, Parts.append_assoc]

/-- The counts of the usage chunk. -/
def GeminiStream.counts (stream : GeminiStream calls.json) : UsageCounts :=
  (countsOfUsage calls stream.usage).usage

/-- The usage that is sent, if it counts tokens. -/
def GeminiStream.sentUsage (stream : GeminiStream calls.json) : List PyData :=
  if stream.counts.totalTokens ≠ 0 then [calls.buildOpenaiUsage stream.counts] else []

theorem usage_adds (stream : GeminiStream calls.json)
    (isUsage : ∀ counts, calls.buildOpenaiUsage counts ≠ .none) :
    Returns (sendSse calls.toBuilderCalls { calls.base with counts := stream.counts }) ()
      { usages := stream.sentUsage } := by
  by_cases counted : stream.counts.totalTokens ≠ 0
  · rw [GeminiStream.sentUsage, if_pos counted]
    exact fun sent => ⟨_, sendSse_apply _ _ sent, partsOf_usage calls.toBuilderCalls
      { calls.base with counts := stream.counts } counted (isUsage _)⟩
  · rw [GeminiStream.sentUsage, if_neg counted]
    exact Returns.sse calls.toBuilderCalls { calls.base with counts := stream.counts } (not_not.mp counted)

/-- **What a stream sends**, if the signatures of its calls are accepted. -/
theorem fetchGemini_sends (stream : GeminiStream calls.json)
    (isUsage : ∀ counts, calls.buildOpenaiUsage counts ≠ .none)
    (accepted : ∀ chunk ∈ stream.chunks, chunk.Accepted) :
    ∃ sent, fetchGeminiResponseStream calls stream.events [] = (.ok (), sent) ∧
      partsOf sent = addedOf stream.chunks ++ { usages := stream.sentUsage } := by
  have earlier := earlier_collect stream.earlier fun chunk among =>
    accepted chunk (List.mem_append_left _ among)
  have last := geminiEvent_last stream (accepted stream.last
      (List.mem_append_right _ (List.mem_singleton_self _)))
  have all : stream.events.filter (fun _ => true) = stream.earlier.map (·.event none)
      ++ stream.last.event (some stream.finishReason) :: [] := List.filter_true _
  obtain ⟨items, runs, parts⟩ := Collects.leaves (fun _ idle => by cases idle) all earlier last []
  obtain ⟨items', runs', parts'⟩ := usage_adds stream isUsage ([] ++ items)
  refine ⟨items ++ items' ++ [.done], ?_, ?_⟩
  · rw [fetchGeminiResponseStream, Raise.bind_apply, runs]
    show (sendSse _ { calls.base with counts := stream.counts } >>= fun _ => send .done) ([] ++ items) = _
    rw [Raise.bind_apply, runs']
    rfl
  · rw [partsOf_append, partsOf_append, parts, parts', GeminiStream.chunks, addedOf_append]
    rw [show addedOf [stream.last] = stream.last.added from Parts.append_nil _]
    exact Parts.append_nil _

theorem loop_raises {event : GeminiEvent} {error : StreamError}
    (raises : geminiJsonPoccess calls event = .error error) (rest : List GeminiEvent) (sent : List Sent) :
    (loop (geminiEvent calls) {} (event :: rest) sent).1 = .error error := by
  rw [loop, Raise.bind_apply, geminiEvent_refused {} raises]

theorem loop_refused (chunks : List (GeminiChunk calls.json)) (refused : ¬ ∀ chunk ∈ chunks, chunk.Accepted)
    (rest : List GeminiEvent) (sent : List Sent) :
    ∃ error, (loop (geminiEvent calls) {} (chunks.map (·.event none) ++ rest) sent).1 = .error error := by
  induction chunks generalizing sent with
  | nil => exact absurd (fun _ among => nomatch among) refused
  | cons chunk chunks ih =>
    by_cases accepted : chunk.Accepted
    · obtain ⟨items, runs, -⟩ := (geminiEvent_earlier accepted).continues
        (chunks.map (·.event none) ++ rest) sent
      obtain ⟨error, raises⟩ := ih (fun all => refused (List.forall_mem_cons.mpr ⟨accepted, all⟩))
        (sent ++ items)
      exact ⟨error, (congrArg Prod.fst runs).trans raises⟩
    · obtain ⟨error, raises⟩ := GeminiChunk.normalized_of_refused accepted
      exact ⟨error, loop_raises (by rw [geminiJsonPoccess_earlier, raises]; rfl) _ sent⟩

theorem fetchGemini_refused (stream : GeminiStream calls.json)
    (refused : ¬ ∀ chunk ∈ stream.chunks, chunk.Accepted) (sent : List Sent) :
    fetchGeminiResponseStream calls stream.events [] ≠ (.ok (), sent) := by
  have fails : ∃ error, (loop (geminiEvent calls) {} stream.events []).1 = .error error := by
    by_cases early : ∀ chunk ∈ stream.earlier, chunk.Accepted
    · have last : ¬ stream.last.Accepted := fun accepted =>
        refused (List.forall_mem_append.mpr ⟨early, fun chunk isLast =>
          List.mem_singleton.mp isLast ▸ accepted⟩)
      obtain ⟨error, raises⟩ := GeminiChunk.normalized_of_refused last
      have skips := (show Collects (geminiEvent calls) {}
          ((stream.earlier.map (·.event none)).filter fun _ => true)
        (addedOf stream.earlier) by
          rw [List.filter_true]
          exact earlier_collect stream.earlier early).continues (fun _ idle => by cases idle)
      obtain ⟨items, runs, -⟩ := skips [stream.last.event (some stream.finishReason)] []
      refine ⟨error, (congrArg Prod.fst runs).trans (loop_raises ?_ [] _)⟩
      rw [geminiJsonPoccess_last, raises]
      rfl
    · exact loop_refused stream.earlier early _ []
  obtain ⟨error, raises⟩ := fails
  intro returned
  rw [fetchGeminiResponseStream, Raise.bind_ok] at returned
  obtain ⟨state, between, returns, -⟩ := returned
  rw [returns] at raises
  cases raises

end Chunks

/-! ### The whole response -/

section Whole

variable {calls : GeminiCalls} (stream : GeminiStream calls.json)

theorem coerce_of_falsy {value : PyData} (falsy : value.truthy = false) : calls.coerce value = 0 := by
  cases value with
  | none => rfl
  | bool value =>
    cases value with
    | false => rfl
    | true => cases falsy
  | int value =>
    obtain rfl : value = 0 := by simpa [PyData.truthy] using falsy
    rfl
  | float value =>
    obtain rfl : value = some 0 := by simpa [PyData.truthy] using falsy
    show min PyData.maxTokenCount (max 0 ⌊(0 : ℚ)⌋) = 0
    rw [Int.floor_zero]
    rfl
  | str words =>
    cases words with
    | nil => rfl
    | cons => cases falsy
  | list items => rfl
  | dict members => rfl

/-- The counts of a response, read from its usage by either function. -/
theorem counts_given (usage : List (String × PyData)) :
    (geminiCounts fun name => calls.coerce (calls.safeGet (givenDict calls.toStreamCalls usage)
      [name] (.int 0)))
      = countsOfUsage calls usage := by
  refine congrArg geminiCounts ?_
  funext name
  by_cases given : calls.keepsFalsy ∨ usage ≠ []
  · rw [givenDict, if_pos given]
    have follows : (PyData.dict usage).follow [name] = usage.lookup name := by
      show (usage.lookup name).bind some = _
      cases usage.lookup name <;> rfl
    cases found : usage.lookup name with
    | none =>
      rw [StreamCalls.safeGet, PyData.safeGet_of_none (follows.trans found)]
      rfl
    | some value =>
      show calls.coerce (PyData.safeGet _ _ _ _) = calls.coerce value
      rw [PyData.safeGet, follows.trans found]
      dsimp only
      split
      · rfl
      · rename_i dropped
        rw [@coerce_of_falsy calls value (by simp_all)]
        rfl
  · obtain rfl : usage = [] := by simpa using (not_or.mp given).2
    rw [givenDict, if_neg given, StreamCalls.safeGet, PyData.safeGet_of_none rfl]
    rfl

/-- The arguments of the builder for the response. -/
def GeminiStream.arguments (call : GeminiFunctionCall) : BuilderArguments :=
  { calls.base with
    content := .str (stream.parts.flatMap GeminiPart.textPart)
    toolsId := optionText call.callId
    functionCallName := optionText call.name
    functionCallContent := call.arguments
    role := lit "assistant"
    counts := stream.counts
    reasoningContent := .str (stream.parts.flatMap GeminiPart.thoughtPart) }

theorem yieldGemini_eq (callUuid audioUuid : PyText) :
    yieldGeminiChatCompletion calls ⟨stream.message, callUuid, audioUuid⟩ =
      match firstCall stream.parts with
      | none => .ok (generateNoStreamResponse calls.toBuilderCalls (stream.arguments { name := none }))
      | some made => (made.callId callUuid).map fun callId =>
        generateNoStreamResponse calls.toBuilderCalls (stream.arguments (calledForm made callId)) := by
  have partsList : ((calls.safeGet (.list [stream.message]) [0, "candidates", 0, "content", "parts"]
      (.list [])).asList).getD [] = stream.parts.map GeminiPart.json := asList_safeGet rfl
  have usage : calls.safeGet (.list [stream.message]) [.index (-1), "usageMetadata"] .none
      = givenDict calls.toStreamCalls stream.usage := safeGet_dict rfl
  have run : yieldGeminiChatCompletion calls ⟨stream.message, callUuid, audioUuid⟩
      = (normalizeGeminiParts calls callUuid (stream.parts.map GeminiPart.json)).map fun normalized =>
        geminiCompletion calls audioUuid normalized (countsOfUsage calls stream.usage) := by
    rw [← counts_given stream.usage, ← usage, ← partsList]
    rfl
  rw [run, normalize_parts]
  cases firstCall stream.parts with
  | none => rfl
  | some made => cases isId : made.callId callUuid <;> simp only [isId] <;> rfl

/-- The first calls of the responses. -/
def GeminiStream.firsts : List (GeminiCallPart calls.json) :=
  stream.chunks.filterMap fun chunk => firstCall chunk.parts

/-- The name of a call that is sent: that of a call with an id. -/
def GeminiCallPart.sentName (made : GeminiCallPart calls.json) : PyText :=
  match made.signed with
  | .ok true => made.name
  | _ => []

/-- There is one call and no text. The first calls of the responses have signatures that are accepted; the
names of those with a signature are together the name of the first one; and it alone has arguments. -/
def GeminiStream.OneCall : Prop :=
  ∃ first others, stream.firsts = first :: others
    ∧ (∀ part ∈ stream.parts, part.textPart = [] ∧ part.thoughtPart = [])
    ∧ (∀ made ∈ stream.firsts, ∃ isSigned, made.signed = .ok isSigned)
    ∧ stream.firsts.flatMap GeminiCallPart.sentName = first.name
    ∧ first.arguments calls.toStreamCalls ≠ .none
    ∧ ∀ made ∈ others, made.arguments calls.toStreamCalls = .none

/-- The first call of parts that are put together is the first one of the first parts that have one. -/
theorem firstCall_flatMap (chunks : List (GeminiChunk calls.json)) :
    firstCall (chunks.flatMap GeminiChunk.parts)
      = (chunks.filterMap fun chunk => firstCall chunk.parts).head? := by
  induction chunks with
  | nil => rfl
  | cons chunk chunks ih =>
    rw [firstCall] at ih
    rw [firstCall, List.flatMap_cons, List.filterMap_append, List.head?_append, ih, List.filterMap_cons]
    show ((firstCall chunk.parts).or _) = _
    cases firstCall chunk.parts <;> rfl

theorem firstCall_parts : firstCall stream.parts = stream.firsts.head? := firstCall_flatMap stream.chunks

theorem firstCall_none (parts : List (GeminiPart calls.json)) :
    firstCall parts = none ↔ ∀ part ∈ parts, part.call? = none := by
  rw [firstCall, List.head?_eq_none_iff, List.filterMap_eq_nil_iff]

theorem accepted_iff : (∀ chunk ∈ stream.chunks, chunk.Accepted) ↔
    ∀ made ∈ stream.firsts, ∃ isSigned, made.signed = .ok isSigned := by
  constructor
  · intro accepted made among
    obtain ⟨chunk, isChunk, isFirst⟩ := List.mem_filterMap.mp among
    exact accepted chunk isChunk made isFirst
  · exact fun all chunk isChunk made isFirst => all made (List.mem_filterMap.mpr ⟨chunk, isChunk, isFirst⟩)

theorem joined_deltas {made : GeminiCallPart calls.json} {uuid : PyText} {callId : Option PyText}
    (isId : made.callId uuid = .ok callId) :
    (Client.joined (made.deltas uuid)).name = made.sentName ∧
      (Client.joined (made.deltas uuid)).arguments = made.argumentsText := by
  have arguments : Client.joined (if made.argumentsText = [] then []
      else [Client.argumentsDelta made.argumentsText]) = ⟨[], [], made.argumentsText⟩ := by
    by_cases empty : made.argumentsText = []
    · rw [if_pos empty, empty]
      rfl
    · rw [if_neg empty]
      have one := Client.joined_arguments [made.argumentsText]
      rwa [List.flatten_singleton] at one
  have signed := signed_of_callId isId
  rw [GeminiCallPart.deltas, Client.joined_append, arguments, GeminiCallPart.sentName, signed, isId]
  cases callId with
  | none => exact ⟨rfl, rfl⟩
  | some id =>
    have header : Client.joined [Client.headerDelta id made.name] = ⟨id, made.name, []⟩ :=
      Client.joined_call id made.name []
    dsimp only
    rw [header]
    exact ⟨List.append_nil _, rfl⟩

/-- The calls of the responses, as their deltas have them. -/
theorem joined_chunks (chunks : List (GeminiChunk calls.json))
    (accepted : ∀ chunk ∈ chunks, chunk.Accepted) :
    (Client.joined (chunks.flatMap GeminiChunk.toolDeltas)).name
        = (chunks.filterMap fun chunk => firstCall chunk.parts).flatMap GeminiCallPart.sentName ∧
      (Client.joined (chunks.flatMap GeminiChunk.toolDeltas)).arguments
        = (chunks.filterMap fun chunk => firstCall chunk.parts).flatMap GeminiCallPart.argumentsText := by
  induction chunks with
  | nil => exact ⟨rfl, rfl⟩
  | cons chunk chunks ih =>
    obtain ⟨names, texts⟩ := ih fun later among => accepted later (List.mem_cons_of_mem _ among)
    rw [List.flatMap_cons, Client.joined_append, List.filterMap_cons, names, texts, GeminiChunk.toolDeltas]
    cases isFirst : firstCall chunk.parts with
    | none => exact ⟨rfl, rfl⟩
    | some made =>
      obtain ⟨isSigned, signed⟩ := accepted chunk List.mem_cons_self made isFirst
      obtain ⟨callId, isId, -⟩ := callId_of_signed signed chunk.callUuid
      obtain ⟨name, arguments⟩ := joined_deltas isId
      exact ⟨congrArg (· ++ _) name, congrArg (· ++ _) arguments⟩

theorem indexOf_deltas {made : GeminiCallPart calls.json} {uuid : PyText} {delta : PyData}
    (among : delta ∈ made.deltas uuid) : Client.indexOf delta = 0 := by
  rw [GeminiCallPart.deltas] at among
  rcases List.mem_append.mp among with isHeader | isArguments
  · split at isHeader
    · rw [List.mem_singleton.mp isHeader]
      rfl
    · cases isHeader
  · split at isArguments
    · cases isArguments
    · rw [List.mem_singleton.mp isArguments]
      rfl

theorem indexOf_chunks {chunks : List (GeminiChunk calls.json)} :
    ∀ delta ∈ chunks.flatMap GeminiChunk.toolDeltas, Client.indexOf delta = 0 := by
  intro delta among
  obtain ⟨chunk, -, isDelta⟩ := List.mem_flatMap.mp among
  rw [GeminiChunk.toolDeltas] at isDelta
  cases isFirst : firstCall chunk.parts with
  | none =>
    rw [isFirst] at isDelta
    cases isDelta
  | some made =>
    rw [isFirst] at isDelta
    exact indexOf_deltas isDelta

theorem addedOf_eq (chunks : List (GeminiChunk calls.json)) : addedOf chunks
    = { content := (chunks.flatMap GeminiChunk.parts).flatMap GeminiPart.textPart,
        reasoning := (chunks.flatMap GeminiChunk.parts).flatMap GeminiPart.thoughtPart,
        toolDeltas := chunks.flatMap GeminiChunk.toolDeltas } := by
  induction chunks with
  | nil => rfl
  | cons chunk chunks ih =>
    rw [addedOf, ih, List.flatMap_cons, List.flatMap_append, List.flatMap_append, List.flatMap_cons]
    rfl

/-! #### The arguments -/

theorem texts_cases (made : List (GeminiCallPart calls.json)) :
    (∀ call ∈ made, call.arguments calls.toStreamCalls = .none)
      ∧ made.flatMap GeminiCallPart.argumentsText = []
      ∨ (¬ ∀ call ∈ made, call.arguments calls.toStreamCalls = .none) ∧
        (made.flatMap GeminiCallPart.argumentsText).all Json.isSpace = false := by
  by_cases none_ : ∀ call ∈ made, call.arguments calls.toStreamCalls = .none
  · refine .inl ⟨none_, List.flatMap_eq_nil_iff.mpr fun call among => ?_⟩
    rw [GeminiCallPart.argumentsText, none_ call among]
  · refine .inr ⟨none_, Bool.eq_false_iff.mpr fun space => none_ fun call among => ?_⟩
    rcases argumentsText_cases call with ⟨isNone, -⟩ | ⟨members, -, -, reads⟩
    · exact isNone
    · have notSpace := calls.json.not_space reads
      rw [List.all_flatMap, List.all_eq_true] at space
      rw [space call among] at notSpace
      cases notSpace

theorem loads_texts (made : List (GeminiCallPart calls.json)) :
    calls.json.loads (made.flatMap GeminiCallPart.argumentsText) ≠ some .none := by
  induction made with
  | nil =>
    rw [List.flatMap_nil, calls.json.loads_nil]
    exact fun same => nomatch same
  | cons call others ih =>
    rw [List.flatMap_cons]
    rcases argumentsText_cases call with ⟨-, empty⟩ | ⟨members, -, -, reads⟩
    · rw [empty]
      exact ih
    · rcases texts_cases others with ⟨-, empty⟩ | ⟨-, notSpace⟩
      · rw [empty, List.append_nil, reads]
        exact fun same => nomatch same
      · rw [calls.json.two_objects reads notSpace]
        exact fun same => nomatch same

/-- The arguments of the first calls are those of the first one exactly when it alone has arguments. -/
theorem loads_same (first : GeminiCallPart calls.json) (others : List (GeminiCallPart calls.json)) :
    calls.json.loads ((first :: others).flatMap GeminiCallPart.argumentsText)
        = calls.json.loads (calls.json.dumps (first.arguments calls.toStreamCalls)) ↔
      first.arguments calls.toStreamCalls ≠ .none ∧
        ∀ made ∈ others, made.arguments calls.toStreamCalls = .none := by
  rcases argumentsText_cases first with ⟨isNone, empty⟩ | ⟨members, isDict, text, reads⟩
  · rw [isNone, calls.json.loads_dumps _ _ calls.json.loads_null]
    exact iff_of_false (loads_texts _) fun both => both.1 rfl
  · have whole : calls.json.loads (calls.json.dumps (first.arguments calls.toStreamCalls)) = some
      (.dict members) := by
      rw [isDict, ← text]
      exact reads
    have some_ : first.arguments calls.toStreamCalls ≠ .none := by
      rw [isDict]
      exact fun same => nomatch same
    rw [whole, List.flatMap_cons]
    rcases texts_cases others with ⟨none_, empty⟩ | ⟨some_', notSpace⟩
    · rw [empty, List.append_nil]
      exact iff_of_true reads ⟨some_, none_⟩
    · rw [calls.json.two_objects reads notSpace]
      exact iff_of_false (fun same => nomatch same) fun both => some_' both.2

/-- A call of Gemini with its arguments as a JSON value. -/
def namedView (json : JsonCodec) (call : ToolCall) : PyText × Option PyData :=
  (call.name, json.loads call.arguments)

/-- The calls of the responses are the call of the whole response. -/
theorem sameCalls_iff (accepted : ∀ chunk ∈ stream.chunks, chunk.Accepted)
    {first : GeminiCallPart calls.json} {others : List (GeminiCallPart calls.json)}
    (isFirsts : stream.firsts = first :: others) (id : PyText) :
    (Client.gathered (stream.chunks.flatMap GeminiChunk.toolDeltas)).map (namedView calls.json)
        = [(⟨id, first.name, calls.json.dumps (first.arguments calls.toStreamCalls)⟩ : ToolCall)].map
          (namedView calls.json) ↔
      stream.firsts.flatMap GeminiCallPart.sentName = first.name ∧
        first.arguments calls.toStreamCalls ≠ .none ∧
        ∀ made ∈ others, made.arguments calls.toStreamCalls = .none := by
  obtain ⟨names, texts⟩ := joined_chunks stream.chunks accepted
  rw [← GeminiStream.firsts] at names texts
  have given := loads_same first others
  rw [← isFirsts, ← texts] at given
  by_cases empty : stream.chunks.flatMap GeminiChunk.toolDeltas = []
  · rw [empty]
    refine iff_of_false (fun same => nomatch same) fun both => ?_
    have noArguments := given.mpr both.2
    rw [empty, show (Client.joined []).arguments = [] from rfl, calls.json.loads_nil] at noArguments
    rcases argumentsText_cases first with ⟨isNone, -⟩ | ⟨members, isDict, text, reads⟩
    · exact both.2.1 isNone
    · rw [isDict, ← text, reads] at noArguments
      cases noArguments
  · rw [Client.gathered_of_zero indexOf_chunks empty, ← given, ← names]
    show [_] = [_] ↔ _
    rw [List.singleton_inj]
    exact Prod.mk.injEq _ _ _ _ ▸ Iff.rfl

/-- **What a client has of the responses**, if the signatures of their calls are accepted. -/
theorem gemini_streamed (isUsage : ∀ counts, calls.buildOpenaiUsage counts ≠ .none)
    (accepted : ∀ chunk ∈ stream.chunks, chunk.Accepted) :
    ∃ sent, fetchGeminiResponseStream calls stream.events [] = (.ok (), sent) ∧
      Client.reassemble (chunksOf sent) =
        { content := stream.parts.flatMap GeminiPart.textPart
          reasoning := stream.parts.flatMap GeminiPart.thoughtPart
          toolCalls := Client.gathered (stream.chunks.flatMap GeminiChunk.toolDeltas)
          usage := if stream.counts.totalTokens ≠ 0 then some (calls.buildOpenaiUsage stream.counts)
            else none } := by
  obtain ⟨sent, runs, parts⟩ := fetchGemini_sends stream isUsage accepted
  refine ⟨sent, runs, ?_⟩
  have usage : stream.sentUsage.getLast? = if stream.counts.totalTokens ≠ 0
      then some (calls.buildOpenaiUsage stream.counts) else none := by
    rw [GeminiStream.sentUsage]
    by_cases counted : stream.counts.totalTokens ≠ 0
    · rw [if_pos counted, if_pos counted]
      rfl
    · rw [if_neg counted, if_neg counted]
      rfl
  rw [Client.reassemble_eq, show Client.parts (chunksOf sent) = _ from parts, addedOf_eq, ← usage]
  show Client.Parts.answer ⟨_ ++ [], _ ++ [], _ ++ [], [] ++ _⟩ = _
  simp only [List.append_nil, List.nil_append]
  rfl

/-- **A client has the same answer of the responses and of one response with all their parts exactly when**
no part is a call, or there is one call and no text. -/
theorem gemini_answers_agree_iff (isUsage : ∀ counts, calls.buildOpenaiUsage counts ≠ .none)
    (callUuid audioUuid : PyText) :
    (∃ sent completion, fetchGeminiResponseStream calls stream.events [] = (.ok (), sent) ∧
        yieldGeminiChatCompletion calls ⟨stream.message, callUuid, audioUuid⟩ = .ok completion ∧
        SameAnswer (namedView calls.json) (Client.reassemble (chunksOf sent)) (Client.read completion)) ↔
      (∀ part ∈ stream.parts, part.call? = none) ∨ stream.OneCall := by
  by_cases accepted : ∀ chunk ∈ stream.chunks, chunk.Accepted
  · obtain ⟨sent, runs, streamed⟩ := gemini_streamed stream isUsage accepted
    have yields := yieldGemini_eq stream callUuid audioUuid
    rw [firstCall_parts] at yields
    cases isFirsts : stream.firsts with
    | nil =>
      rw [isFirsts] at yields
      have noCall : ∀ part ∈ stream.parts, part.call? = none := by
        rw [← firstCall_none, firstCall_parts, isFirsts]
        rfl
      refine iff_of_true ⟨sent, _, runs, yields, ?_⟩ (.inl noCall)
      have noDeltas : stream.chunks.flatMap GeminiChunk.toolDeltas = [] := by
        refine List.flatMap_eq_nil_iff.mpr fun chunk among => ?_
        rw [GeminiChunk.toolDeltas, List.filterMap_eq_nil_iff.mp isFirsts chunk among]
        rfl
      rw [Client.read_message calls.toBuilderCalls _ (isUsage _) rfl]
      rw [streamed]
      refine ⟨rfl, rfl, ?_, rfl⟩
      rw [noDeltas]
      rfl
    | cons first others =>
      have someCall : ¬ ∀ part ∈ stream.parts, part.call? = none := by
        rw [← firstCall_none, firstCall_parts, isFirsts]
        exact Option.some_ne_none _
      obtain ⟨isSigned, signed⟩ := (accepted_iff stream).mp accepted first
        (by rw [isFirsts]; exact List.mem_cons_self)
      obtain ⟨callId, isId, -⟩ := callId_of_signed signed callUuid
      rw [isFirsts, List.head?_cons] at yields
      dsimp only at yields
      rw [isId] at yields
      have whole := Client.read_call calls.toBuilderCalls
          (stream.arguments (calledForm first callId)) (isUsage _)
        ((PyData.truthy_str first.name).mpr first.hasName)
      have same := sameCalls_iff stream accepted isFirsts
      constructor
      · rintro ⟨sent', completion, runs', yields', ⟨content, reasoning, toolCalls, -⟩⟩
        obtain rfl : sent = sent' := congrArg Prod.snd (runs.symm.trans runs')
        obtain rfl := Except.ok.inj (yields.symm.trans yields')
        rw [whole, streamed] at content reasoning toolCalls
        obtain ⟨names, given⟩ := (same _).mp toolCalls
        refine .inr ⟨first, others, isFirsts, fun part among => ⟨?_, ?_⟩, (accepted_iff stream).mp accepted,
          names, given⟩
        · exact List.flatMap_eq_nil_iff.mp content part among
        · exact List.flatMap_eq_nil_iff.mp reasoning part among
      · intro form
        obtain ⟨first', others', isFirsts', silent, -, names, given⟩ := form.resolve_left someCall
        obtain ⟨rfl, rfl⟩ := List.cons_eq_cons.mp (isFirsts.symm.trans isFirsts')
        refine ⟨sent, _, runs, yields, ?_⟩
        rw [whole, streamed]
        exact ⟨List.flatMap_eq_nil_iff.mpr fun part among => (silent part among).1,
          List.flatMap_eq_nil_iff.mpr fun part among => (silent part among).2,
          (same _).mpr ⟨names, given⟩, rfl⟩
  · refine iff_of_false ?_ ?_
    · rintro ⟨sent, completion, runs, -⟩
      exact fetchGemini_refused stream accepted sent runs
    · rintro (noCall | ⟨first, others, -, -, signed, -⟩)
      · refine accepted ((accepted_iff stream).mpr fun made among => ?_)
        obtain ⟨chunk, isChunk, isFirst⟩ := List.mem_filterMap.mp among
        have none_ := (firstCall_none chunk.parts).mpr fun part isPart =>
          noCall part (List.mem_flatMap.mpr ⟨chunk, isChunk, isPart⟩)
        rw [none_] at isFirst
        cases isFirst
      · exact accepted ((accepted_iff stream).mpr signed)

/-- The calls of `plainCalls`, with `str` and `str.lower` of ASCII. -/
noncomputable def plainGeminiCalls : GeminiCalls where
  toStreamCalls := plainCalls
  strOfOther _ := []
  tables := .ascii
  inlineDataToWav _ _ := none

/-- A response with one call that has no signature. -/
def unsignedStream : GeminiStream plainGeminiCalls.json where
  earlier := []
  last := ⟨[.call ⟨Utf8.points "f", some [], none, by decide, fun members given =>
    ⟨Utf8.points "\x7b\x7d", Option.some.inj given ▸ rfl⟩⟩], some [], [], []⟩
  finishReason := Utf8.points "STOP"
  usage := []
  finishes := by decide
  counted := rfl

/-- A thought and a text in two responses. -/
def textsStream : GeminiStream plainGeminiCalls.json where
  earlier := [⟨[.thought (Utf8.points "t")], none, [], []⟩]
  last := ⟨[.text (Utf8.points "ab")], some [], [], []⟩
  finishReason := Utf8.points "STOP"
  usage := []
  finishes := by decide
  counted := rfl

theorem gemini_answers_agree_iff_texts : ∃ sent completion,
    fetchGeminiResponseStream plainGeminiCalls textsStream.events [] = (.ok (), sent) ∧
      yieldGeminiChatCompletion plainGeminiCalls ⟨textsStream.message, [], []⟩ = .ok completion ∧
      SameAnswer (namedView plainGeminiCalls.json) (Client.reassemble (chunksOf sent))
        (Client.read completion) :=
  (gemini_answers_agree_iff textsStream usageByName_ne_none [] []).mpr (.inl (by
    intro part among
    rcases List.mem_cons.mp among with rfl | among
    · rfl
    · rcases List.mem_cons.mp among with rfl | among
      · rfl
      · cases among))

/-- The stream loses the name of a call without a signature, and the completion has it. -/
theorem unsigned_call_without_name : ¬ ∀ stream : GeminiStream plainGeminiCalls.json,
    ∃ sent completion, fetchGeminiResponseStream plainGeminiCalls stream.events [] = (.ok (), sent) ∧
      yieldGeminiChatCompletion plainGeminiCalls ⟨stream.message, [], []⟩ = .ok completion ∧
      SameAnswer (namedView plainGeminiCalls.json) (Client.reassemble (chunksOf sent))
        (Client.read completion) := by
  intro agree
  obtain ⟨sent, completion, runs, yields, same⟩ := agree unsignedStream
  have accepted : ∀ chunk ∈ unsignedStream.chunks, chunk.Accepted := (accepted_iff unsignedStream).mpr (by
    intro made among
    rcases List.mem_cons.mp among with rfl | among
    · exact ⟨false, rfl⟩
    · cases among)
  obtain ⟨sent', runs', streamed⟩ := gemini_streamed unsignedStream usageByName_ne_none accepted
  obtain rfl : sent' = sent := congrArg Prod.snd (runs'.symm.trans runs)
  obtain rfl := Except.ok.inj ((yieldGemini_eq unsignedStream [] []).symm.trans yields)
  have toolCalls := same.toolCalls
  rw [streamed] at toolCalls
  have names := ((sameCalls_iff unsignedStream accepted rfl _).mp toolCalls).1
  cases names

end Whole

end UniApi.Providers
