/-
**`ProviderErrorClassifier` and `RetryPolicy`: what a failed attempt means.**

The detail of a failure is a text, possibly the text of a JSON object or of a Python literal. The
decoders of both, the case tables, and what is asked of a provider outside the repository are
parameters.
-/

import UniApi.Lib.PyText

namespace UniApi.Upstream

open UniApi.Lib

/-! ### Python values -/

/-- A value of `json.loads` or `ast.literal_eval`. Of what is neither `None`, a string nor a dict only
`bool(..)` and `str(..)` are read. -/
inductive PyValue where
  | none
  | str (text : PyText)
  | dict (members : List (PyValue × PyValue)) (shown : PyText)
  | other (truthy : Bool) (shown : PyText)

namespace PyValue

/-- `str(value)`. -/
def toText : PyValue → PyText
  | none => Utf8.points "None"
  | str text => text
  | dict _ shown => shown
  | other _ shown => shown

/-- `bool(value)`. -/
def truthy : PyValue → Bool
  | none => false
  | str text => !text.isEmpty
  | dict members _ => !members.isEmpty
  | other truthy _ => truthy

/-- `first or second`. -/
def orElse (first second : PyValue) : PyValue := if first.truthy then first else second

/-- `isinstance(value, dict)`, with the members. -/
def asDict : PyValue → Option (List (PyValue × PyValue))
  | dict members _ => some members
  | _ => Option.none

end PyValue

/-- `members.get(key)`. -/
def dictGet (members : List (PyValue × PyValue)) (key : String) : PyValue :=
  (members.findSome? fun (name, value) =>
    match name with
    | .str text => if text = Utf8.points key then some value else none
    | _ => none).getD .none

/-- The interpreter: the case tables, and `json.loads` and `ast.literal_eval`, `none` where they
raise. -/
structure PyRuntime extends PyText.CaseTables where
  jsonLoads : PyText → Option PyValue
  literalEval : PyText → Option PyValue

/-! ### The classifier -/

/-- `_json_or_python_dict`. -/
def jsonOrPythonDict (runtime : PyRuntime) (raw : PyText) : Option PyValue :=
  if !((Utf8.points "\x7b").isPrefixOf raw || (Utf8.points "[").isPrefixOf raw) then none
  else (runtime.jsonLoads raw).or (runtime.literalEval raw)

/-- `text or None`. -/
def textOrNone (text : PyText) : Option PyText := if text.isEmpty then none else some text

structure DetailsParts where
  code : Option PyText
  errorType : Option PyText
  message : Option PyText
  raw : PyText

/-- The members `code`, `type` and `message` of `error`, then of `detail`. -/
def detailMember (parsed : Option PyValue) (field : String) : PyValue :=
  match parsed.bind PyValue.asDict with
  | none => .none
  | some members =>
    let ofError := ((dictGet members "error").asDict.map (dictGet · field)).getD .none
    match (dictGet members "detail").asDict with
    | none => ofError
    | some detail => (dictGet detail field).orElse ofError

/-- `details_parts`. -/
def detailsParts (runtime : PyRuntime) (details : PyText) : DetailsParts :=
  let parsed := jsonOrPythonDict runtime details
  { code := textOrNone (runtime.lower (PyText.strip (detailMember parsed "code").toText))
    errorType := textOrNone (runtime.lower (PyText.strip (detailMember parsed "type").toText))
    message := textOrNone (PyText.strip (detailMember parsed "message").toText)
    raw := details }

/-- One of the texts is in the text. -/
def mentions (markers : List String) (text : PyText) : Bool :=
  markers.any fun marker => isSubstring (Utf8.points marker) text

/-- `_MODEL_PRICING_UNCONFIGURED_CODES`. -/
def modelPricingUnconfiguredCodes : List String :=
  ["model_not_priced", "model_price_not_configured", "model_pricing_not_configured",
    "model_price_unconfigured", "model_pricing_missing"]

/-- `_MODEL_PRICING_UNCONFIGURED_MARKERS`. -/
def modelPricingUnconfiguredMarkers : List String :=
  ["has not been priced by the administrator", "has not been priced by administrator",
    "price has not been configured by the administrator",
    "pricing has not been configured by the administrator", "价格尚未由管理员配置"]

/-- The parsed code is one of the pricing codes. -/
def hasPricingCode (runtime : PyRuntime) (details : PyText) : Bool :=
  (detailsParts runtime details).code.any
    ((modelPricingUnconfiguredCodes.map Utf8.points).contains ·)

/-- The message and the text, joined and folded. -/
def pricingHaystack (runtime : PyRuntime) (details : PyText) : PyText :=
  let parts := detailsParts runtime details
  runtime.casefold (PyText.joinSpaced ([parts.message.getD []] ++ [parts.raw]))

/-- One of the pricing texts is in the message or the text. -/
def hasPricingMarker (runtime : PyRuntime) (details : PyText) : Bool :=
  let haystack := pricingHaystack runtime details
  (modelPricingUnconfiguredMarkers.any fun marker =>
      isSubstring (runtime.casefold (Utf8.points marker)) haystack) ||
    isSubstring (Utf8.points "价格尚未由管理员配置") (haystack.filter (!PyText.isSpace ·))

/-- `is_model_pricing_unconfigured_error`. -/
def isModelPricingUnconfiguredError (runtime : PyRuntime) (statusCode : Nat) (details : PyText) : Bool :=
  if statusCode != 400 then false
  else hasPricingCode runtime details || hasPricingMarker runtime details

/-- The texts of a request that is too long. -/
def lengthMarkers : List String :=
  ["string_above_max_length", "must be less than max_seq_len",
    "Please reduce the length of the messages or completion",
    "Request contains text fields that are too large.",
    "Please reduce the length of either one, or use the",
    "exceeds the maximum number of tokens allowed"]

/-- The texts of a refused key. -/
def keyMarkers : List String :=
  ["'reason': 'API_KEY_INVALID'", "API key not valid", "API key expired"]

/-- The text of a refused location. -/
def locationMarkers : List String := ["User location is not supported for the API use."]

/-- The texts of a gateway that answered 400. -/
def gatewayMarkers : List String :=
  ["<center><h1>400 Bad Request</h1></center>",
    "Provider API error: bad response status code 400"]

/-- The text of a content filter. -/
def filterMarkers : List String :=
  ["The response was filtered due to the prompt triggering Azure OpenAI's content management policy."]

/-- The title of a page that refuses the size of a request. -/
def entityMarkers : List String := ["<head><title>413 Request Entity Too Large</title></head>"]

/-- `remap_status_code`. -/
def remapStatusCode (runtime : PyRuntime) (statusCode : Nat) (errorMessage : PyText) : Nat :=
  if mentions lengthMarkers errorMessage then 413
  else if mentions keyMarkers errorMessage then 401
  else if mentions locationMarkers errorMessage then 403
  else if mentions gatewayMarkers errorMessage then 502
  else if isModelPricingUnconfiguredError runtime statusCode errorMessage then 502
  else if mentions filterMarkers errorMessage then 403
  else if mentions entityMarkers errorMessage then 429
  else statusCode

/-! ### The retry decision -/

/-- What the decision asks of a provider: the engine that `get_engine` names for it, `none` where it
raises, and the host of its base URL. -/
structure Provider where
  engine : Option PyText
  netloc : PyText

/-- `is_codex_chatgpt_model_unsupported_error`. -/
def isCodexChatgptModelUnsupportedError (runtime : PyRuntime) (statusCode : Nat) (details : PyText)
    (provider : Provider) (endpoint : PyText) : Bool :=
  if statusCode != 400 then false
  else if !([Utf8.points "/v1/responses", Utf8.points "/v1/responses/compact"].contains endpoint) then
    false
  else if provider.engine != some (Utf8.points "codex") then false
  else
    let parts := detailsParts runtime details
    mentions ["model is not supported when using codex with a chatgpt account"]
      (runtime.lower (PyText.joinSpaced ([parts.message.getD []] ++ [parts.raw])))

/-- The texts of an item that was not persisted. -/
def missingItemMarkers : List String :=
  ["invalid_request_error", "item with id", "not found", "items are not persisted when", "store"]

/-- `is_missing_persisted_responses_item_error`. -/
def isMissingPersistedResponsesItemError (runtime : PyRuntime) (statusCode : Nat) (details : PyText) :
    Bool :=
  if statusCode != 404 then false
  else
    let parts := detailsParts runtime details
    missingItemMarkers.all fun marker => mentions [marker] (runtime.lower
      (PyText.joinSpaced ([parts.errorType.getD [], parts.message.getD []] ++ [parts.raw])))

/-- `should_retry`. -/
def shouldRetry (runtime : PyRuntime) (autoRetry : Bool) (statusCode : Nat) (provider : Provider)
    (errorMessage endpoint : PyText) : Bool :=
  if !autoRetry then false
  else if isModelPricingUnconfiguredError runtime statusCode errorMessage then true
  else if isCodexChatgptModelUnsupportedError runtime statusCode errorMessage provider endpoint then true
  else if isMissingPersistedResponsesItemError runtime statusCode errorMessage then false
  else !([400, 413].contains statusCode) ||
    provider.netloc == Utf8.points "models.inference.ai.azure.com"

end UniApi.Upstream
