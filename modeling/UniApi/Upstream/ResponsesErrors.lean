/-
**`responses_failure_error`: the failure that a stream event is, in Python.**

Strings are decoded and bounded before they are compared. What the code takes from outside the
repository, `safe_get` of the core package, is a parameter: it follows its keys through dicts, and of a
falsy leaf only is it open whether the leaf or the default is returned.

* `SafeGet.get_isNull`, `SafeGet.get_of_counts`: what `safe_get` returns;
* `token_eq_word`, `token_of_eqIgnoreAsciiCase`: which strings are the token of a word;
* `responsesFailureError_isSome`: which events are failures.
-/

import UniApi.Front.ProviderStatus

namespace UniApi.Upstream

open UniApi.Lib UniApi.Front

/-! ### JSON values in Python -/

/-- A JSON string as a Python string. JSON strings are UTF-8; other bytes stand for themselves. -/
def pyText (text : Bytes) : PyText := (Utf8.decodeAll text).getD (text.map UInt8.toNat)

/-- `payload.get(key)`. -/
def getOrNone (payload : Value) (key : String) : Value := (payload.get (Utf8.lit key)).getD .null

/-- `key in payload`. -/
def hasKey (payload : Value) (key : String) : Bool := (payload.get (Utf8.lit key)).isSome

/-- `bool(value)`. The text of a float that is zero has no other digit in front of its exponent. -/
def truthy : Value → Bool
  | .null => false
  | .bool value => value
  | .number (.posInt value) => value != 0
  | .number (.negInt value) => value != 0
  | .number (.float text) =>
    (text.takeWhile fun byte => byte != 69 && byte != 101).any fun byte => 49 ≤ byte && byte ≤ 57
  | .string text => !text.isEmpty
  | .array items => !items.isEmpty
  | .object members => !members.isEmpty

/-- Where keys lead through dicts. -/
def follow (data : Value) : List String → Option Value
  | [] => some data
  | key :: keys => (data.get (Utf8.lit key)).bind (follow · keys)

/-- `safe_get(data, *keys, default)`. -/
structure SafeGet where
  get : Value → List String → Value → Value
  keepsFalsy : Bool
  get_eq : ∀ data keys default, get data keys default =
    match follow data keys with
    | none => default
    | some leaf => if truthy leaf || keepsFalsy then leaf else default

/-- The interpreter: the case tables, `str(..)` of what is no string, `int(..)` of a float, the values
of decimal digits, and `safe_get`. -/
structure StreamRuntime extends PyText.CaseTables where
  safeGet : SafeGet
  shown : Value → PyText
  shown_null : shown .null = Utf8.points "None"
  shown_nonempty : ∀ value, value.asStr = none → shown value ≠ []
  shown_word : ∀ value, value.asStr = none → ∀ word ∈ ["failed", "error", "response.failed"],
    lower (PyText.strip (shown value)) ≠ Utf8.points word
  shown_item : ∀ value, value.asStr = none → ∀ word ∈ ["function_call", "tool_call"],
    shown value ≠ Utf8.points word
  truncFloat : Bytes → Option Int
  digit : CodePoint → Option Nat
  digit_ascii : ∀ point < 128, digit point = if 48 ≤ point ∧ point ≤ 57 then some (point - 48) else none

/-! ### Bounded texts -/

/-- `_TRUNCATED_MARKER`. -/
def truncatedMarker : PyText := Utf8.points " [truncated]"

/-- `_truncate_text`: the marker has twelve bytes. -/
def truncateText (limitBytes : Nat) (text : Bytes) : PyText :=
  if text.length ≤ max 1 limitBytes then pyText text
  else if max 1 limitBytes ≤ 12 then List.replicate (max 1 limitBytes) 46
  else ((Utf8.decode [] (text.take (max 1 limitBytes - 12))).map Prod.fst).getD [] ++ truncatedMarker

/-- `_truncate_text` of a string that is ASCII: what is shown of a number. -/
def truncateShown (limitBytes : Nat) (text : PyText) : PyText :=
  if text.length ≤ limitBytes then text else text.take (limitBytes - 12) ++ truncatedMarker

variable (runtime : StreamRuntime)

/-- `bounded_stream_error_text` of a JSON value. -/
def boundedStreamErrorText (limitBytes : Nat) : Value → PyText
  | .string text => truncateText limitBytes text
  | .array _ => Utf8.points "list"
  | .object _ => Utf8.points "dict"
  | other => truncateShown limitBytes (runtime.shown other)

/-- `_bounded_optional_text`. -/
def boundedOptionalText (limitBytes : Nat) (value : Value) : Option PyText :=
  match value with
  | .null | .array _ | .object _ => none
  | other =>
    let text := PyText.strip (boundedStreamErrorText runtime limitBytes other)
    if text.isEmpty then none else some text

/-- `_normalized_protocol_token`: the token, and whether the value may be one. -/
def protocolToken (value : Value) : PyText × Bool :=
  match value with
  | .null => ([], true)
  | .string text => (runtime.lower ((boundedOptionalText runtime 128 (.string text)).getD []), true)
  | _ => ([], false)

/-! ### Tokens -/

section Tokens

variable {runtime}

theorem pyText_eq_nil {text : Bytes} : pyText text = [] ↔ text = [] := by
  constructor
  · intro empty
    unfold pyText at empty
    cases decoded : Utf8.decodeAll text with
    | none => simpa [decoded] using empty
    | some points =>
      obtain ⟨letters, isEncoded, isPoints⟩ := Utf8.decodeAll_eq_some_iff.mp decoded
      rw [decoded, Option.getD_some, isPoints, List.map_eq_nil_iff] at empty
      rw [isEncoded, empty]
      rfl
  · rintro rfl
    rfl

theorem pyText_ascii {text : Bytes} (small : ∀ byte ∈ text, byte.toNat < 0x80) :
    pyText text = text.map UInt8.toNat := by
  rw [pyText, Utf8.decodeAll_ascii small, Option.getD_some]

/-- The lower case of a text with a last word in ASCII ends in the lower case of the word. -/
theorem lower_suffix (front : PyText) {word : PyText} (ascii : PyText.Ascii word) :
    word.map PyText.lowerAscii <:+ runtime.lower (front ++ 32 :: word) := by
  rw [runtime.lower_isFold.space, runtime.lower_isFold.ascii word ascii]
  exact (List.suffix_cons _ _).trans (List.suffix_append _ _)

/-- The words that tokens are compared with. -/
def protocolWords : List String := ["failed", "error", "response.failed"]

theorem truncateText_long {text : Bytes} (long : 128 < text.length) :
    ∃ front, truncateText 128 text = front ++ 32 :: Utf8.points "[truncated]" := by
  refine ⟨((Utf8.decode [] (text.take (max 1 128 - 12))).map Prod.fst).getD [], ?_⟩
  rw [truncateText, if_neg (by omega), if_neg (by omega)]
  rfl

/-- The token of a string is the bounded string, stripped and lowered. -/
theorem token_string (text : Bytes) :
    (protocolToken runtime (.string text)).1 = runtime.lower (PyText.strip (truncateText 128 text)) := by
  show runtime.lower ((if (PyText.strip (truncateText 128 text)).isEmpty then none
    else some (PyText.strip (truncateText 128 text))).getD []) = _
  cases PyText.strip (truncateText 128 text) <;> rfl

/-- **A token that is a word** is a whole string, stripped and lowered. -/
theorem token_eq_word {value : Value} {word : String} (isWord : word ∈ protocolWords)
    (token : (protocolToken runtime value).1 = Utf8.points word) :
    ∃ text, value = .string text ∧ runtime.lower (PyText.strip (pyText text)) = Utf8.points word := by
  have notNil : Utf8.points word ≠ [] := by
    have all : protocolWords.all fun word => Utf8.points word != [] := by decide
    simpa using List.all_eq_true.mp all word isWord
  have noBracket : 93 ∉ Utf8.points word := by
    have all : protocolWords.all fun word => !(Utf8.points word).contains 93 := by decide
    simpa using List.all_eq_true.mp all word isWord
  cases value with
  | null => exact absurd token.symm notNil
  | bool value | number value | array items | object members => exact absurd token.symm notNil
  | string text =>
    refine ⟨text, rfl, ?_⟩
    have bounded : runtime.lower (PyText.strip (truncateText 128 text)) = Utf8.points word :=
      (token_string text).symm.trans token
    by_cases short : text.length ≤ 128
    · rwa [truncateText, if_pos (by omega)] at bounded
    · -- the last letter of the marker stays
      obtain ⟨front, isFront⟩ := truncateText_long (not_le.mp short)
      rw [isFront] at bounded
      have marker : PyText.Ascii (Utf8.points "[truncated]") := by
        unfold PyText.Ascii
        decide
      have last : 93 ∈ (Utf8.points "[truncated]").map PyText.lowerAscii := by decide
      have nonempty : Utf8.points "[truncated]" ≠ [] := by decide
      rcases PyText.strip_spaced front nonempty (by decide) with alone | ⟨kept, behind⟩
      · rw [alone, runtime.lower_isFold.ascii _ marker] at bounded
        exact absurd (bounded ▸ last) noBracket
      · rw [behind] at bounded
        exact absurd (bounded ▸ (lower_suffix kept marker).subset last) noBracket

/-- The letters of an ASCII word in any case are no white space. -/
theorem word_letters {text : Bytes} {word : String} (isWord : word ∈ protocolWords)
    (same : eqIgnoreAsciiCase text (Utf8.lit word) = true) :
    (∀ byte ∈ text, byte.toNat < 0x80 ∧ PyText.isSpace byte.toNat = false) ∧
      (text.map UInt8.toNat).map PyText.lowerAscii = Utf8.points word ∧ text.length ≤ 128 := by
  have lowered : text.map toAsciiLowercase = Utf8.lit word := by
    have isLower : protocolWords.all fun word =>
        (Utf8.lit word).map toAsciiLowercase == Utf8.lit word := by
      decide
    rw [eqIgnoreAsciiCase, beq_iff_eq] at same
    rw [same]
    exact beq_iff_eq.mp (List.all_eq_true.mp isLower word isWord)
  have letters : protocolWords.all fun word => (Utf8.lit word).all fun byte =>
      32 < byte.toNat && byte.toNat < 0x80 := by
    decide
  have points : protocolWords.all fun word =>
      (Utf8.lit word).map UInt8.toNat == Utf8.points word && (Utf8.lit word).length ≤ 128 := by
    decide
  have pointsOf := List.all_eq_true.mp points word isWord
  rw [Bool.and_eq_true, beq_iff_eq, decide_eq_true_eq] at pointsOf
  refine ⟨fun byte isByte => ?_, ?_, ?_⟩
  · have isLetter := List.all_eq_true.mp (List.all_eq_true.mp letters word isWord)
      (toAsciiLowercase byte) (lowered ▸ List.mem_map_of_mem isByte)
    rw [Bool.and_eq_true, decide_eq_true_eq, decide_eq_true_eq, toNat_toAsciiLowercase] at isLetter
    have bounds : 32 < byte.toNat ∧ byte.toNat < 0x80 := by
      by_cases upper : 65 ≤ byte.toNat ∧ byte.toNat ≤ 90
      · omega
      · rwa [PyText.lowerAscii, if_neg upper] at isLetter
    refine ⟨bounds.2, ?_⟩
    simp only [PyText.isSpace]
    grind
  · rw [List.map_map, ← pointsOf.1, ← lowered, List.map_map]
    exact List.map_congr_left fun byte _ => (toNat_toAsciiLowercase byte).symm
  · rw [← List.length_map (f := toAsciiLowercase), lowered]
    exact pointsOf.2

/-- A word in any ASCII case, stripped and lowered, is the word. -/
theorem lower_of_eqIgnoreAsciiCase {text : Bytes} {word : String} (isWord : word ∈ protocolWords)
    (same : eqIgnoreAsciiCase text (Utf8.lit word) = true) :
    runtime.lower (PyText.strip (pyText text)) = Utf8.points word := by
  obtain ⟨letters, lowered, -⟩ := word_letters isWord same
  have isAscii : PyText.Ascii (text.map UInt8.toNat) := by
    intro point isPoint
    obtain ⟨byte, isByte, rfl⟩ := List.mem_map.mp isPoint
    exact (letters byte isByte).1
  have kept : PyText.strip (text.map UInt8.toNat) = text.map UInt8.toNat := by
    refine PyText.strip_eq_self fun point isPoint => ?_
    obtain ⟨byte, isByte, rfl⟩ := List.mem_map.mp isPoint
    exact (letters byte isByte).2
  rw [pyText_ascii fun byte isByte => (letters byte isByte).1, kept,
    runtime.lower_isFold.ascii _ isAscii, lowered]

/-- **A word in any ASCII case** is the token of its string. -/
theorem token_of_eqIgnoreAsciiCase {text : Bytes} {word : String} (isWord : word ∈ protocolWords)
    (same : eqIgnoreAsciiCase text (Utf8.lit word) = true) :
    (protocolToken runtime (.string text)).1 = Utf8.points word := by
  obtain ⟨-, -, short⟩ := word_letters isWord same
  rw [token_string, truncateText, if_pos (by omega)]
  exact lower_of_eqIgnoreAsciiCase isWord same

end Tokens

/-! ### The status of an error -/

/-- `RESPONSES_FAILURE_STATUS_BY_CODE`. -/
def failureStatusByCode : List (String × Nat) :=
  [("account_deactivated", 403), ("account_disabled", 403), ("account_suspended", 403),
    ("authentication_error", 401), ("billing_hard_limit_reached", 429),
    ("context_length_exceeded", 400), ("deactivated_workspace", 403),
    ("incorrect_api_key_provided", 401), ("insufficient_quota", 429), ("invalid_api_key", 401),
    ("invalid_request_error", 400), ("invalid_type", 400), ("model_not_found", 404),
    ("model_not_priced", 400), ("model_price_not_configured", 400),
    ("model_pricing_not_configured", 400), ("model_price_unconfigured", 400),
    ("model_pricing_missing", 400), ("not_found_error", 404), ("permission_denied", 403),
    ("rate_limit_exceeded", 429), ("unsupported_parameter", 400), ("user_deactivated", 403),
    ("user_suspended", 403)]

/-- `RESPONSES_FAILURE_STATUS_BY_TYPE`. -/
def failureStatusByType : List (String × Nat) :=
  [("authentication_error", 401), ("invalid_request_error", 400), ("not_found_error", 404),
    ("permission_error", 403), ("rate_limit_error", 429), ("tokens", 429)]

/-- A table under a text. -/
def lookupText (table : List (String × Nat)) (text : PyText) : Option Nat :=
  (table.find? fun entry => Utf8.points entry.1 == text).map Prod.snd

/-- `int(value)`, `none` where it raises. -/
def intOf : Value → Option Int
  | .bool value => some (if value then 1 else 0)
  | .number (.posInt value) => some value
  | .number (.negInt value) => some value
  | .number (.float text) => runtime.truncFloat text
  | .string text => PyText.parseInt runtime.digit (pyText text)
  | _ => none

/-- `_explicit_status_code`. -/
def explicitStatusCode (values : List Value) : Option Nat :=
  values.findSome? fun value =>
    (intOf runtime value).bind fun status =>
      if 400 ≤ status ∧ status ≤ 599 then some status.toNat else none

/-- The texts of an error's message, in the order in which they are looked for. -/
def statusByMessage : List (List String × Nat) :=
  [(["rate limit", "too many requests"], 429),
    (["context window", "context length", "maximum context", "too many tokens"], 400),
    (["request entity too large", "payload too large"], 413), (["invalid", "unsupported"], 400),
    (["not found"], 404), (["permission", "forbidden"], 403),
    (["auth", "api key", "unauthorized"], 401)]

/-- The status of a message. -/
def messageStatus (message : PyText) : Nat :=
  ((statusByMessage.find? fun entry =>
    entry.1.any fun marker => isSubstring (Utf8.points marker) message).map Prod.snd).getD 500

/-- The statuses beside the error. -/
def payloadStatuses (payload : Value) : List Value :=
  [runtime.safeGet.get payload ["status_code"] .null, runtime.safeGet.get payload ["status"] .null,
    runtime.safeGet.get payload ["response", "status_code"] .null]

/-- `responses_error_status_code`. -/
def responsesErrorStatusCode (errorObj payload : Value) : Nat :=
  if errorObj.isObject then
    match explicitStatusCode runtime ([getOrNone errorObj "status_code", getOrNone errorObj "status"] ++
        payloadStatuses runtime payload) with
    | some status => status
    | none =>
      let errorCode := runtime.lower
        ((boundedOptionalText runtime 256 (getOrNone errorObj "code")).getD [])
      match lookupText failureStatusByCode errorCode with
      | some status => status
      | none =>
        let errorType := runtime.lower
          ((boundedOptionalText runtime 256 (getOrNone errorObj "type")).getD [])
        match lookupText failureStatusByType errorType with
        | some status => status
        | none => messageStatus
          (runtime.lower (boundedStreamErrorText runtime 4096 (getOrNone errorObj "message")))
  else
    match explicitStatusCode runtime (payloadStatuses runtime payload) with
    | some status => status
    | none => messageStatus (runtime.lower (boundedStreamErrorText runtime 4096 errorObj))

/-! ### Failures -/

/-- `ResponsesSemanticError`, as far as it is decided here. -/
structure ResponsesSemanticError where
  statusCode : Nat
  eventType : PyText
  message : PyText
  errorCode : Option PyText
  errorType : Option PyText
  param : Option PyText

/-- `_FAILURE_EVENT_TYPES`. -/
def isFailureEventType (token : PyText) : Bool :=
  token == Utf8.points "error" || token == Utf8.points "response.failed"

/-- The keys of an error whose members stand in the payload itself. -/
def flattenedKeys : List String := ["message", "code", "error_type", "status", "status_code"]

/-- The error whose members stand in the payload itself. -/
def flattenedError (payload : Value) : Value :=
  let errorType := getOrNone payload "error_type"
  let typed := ["error", "response.failed"].any fun word =>
    (getOrNone payload "type").asStr == some (Utf8.lit word)
  .object
    [(Utf8.lit "message", getOrNone payload "message"), (Utf8.lit "code", getOrNone payload "code"),
      (Utf8.lit "type", if errorType.isNull && !typed then getOrNone payload "type" else errorType),
      (Utf8.lit "param", getOrNone payload "param"), (Utf8.lit "status", getOrNone payload "status"),
      (Utf8.lit "status_code", getOrNone payload "status_code")]

/-- The error of a payload, by its event type and its statuses; `none` where the function returns. -/
def errorObject (payload : Value) (eventType responseStatus payloadStatus : PyText) : Option Value :=
  if eventType = Utf8.points "error" then
    if hasKey payload "error" then
      let errorObj := runtime.safeGet.get payload ["error"] .null
      if errorObj.isNull then none else some errorObj
    else if flattenedKeys.any (hasKey payload) then some (flattenedError payload)
    else none
  else if eventType = Utf8.points "response.failed" then
    let response := getOrNone payload "response"
    if !response.isObject && !hasKey payload "error" then none
    else
      let errorObj := if response.isObject then getOrNone response "error" else .null
      some (if errorObj.isNull && hasKey payload "error" then getOrNone payload "error" else errorObj)
  else if responseStatus = Utf8.points "failed" then
    some (runtime.safeGet.get payload ["response", "error"] .null)
  else if payloadStatus = Utf8.points "failed" then
    some (runtime.safeGet.get payload ["error"] .null)
  else if (getOrNone payload "error").isObject then some (getOrNone payload "error")
  else some .null

/-- The exception for an error of an event. -/
def semanticError (errorObj payload : Value) (eventType : PyText) : ResponsesSemanticError :=
  let member := fun field : String =>
    if errorObj.isObject then boundedOptionalText runtime 256 (getOrNone errorObj field) else none
  let message :=
    if errorObj.isObject then boundedOptionalText runtime 4096 (getOrNone errorObj "message")
    else boundedOptionalText runtime 4096 errorObj
  { statusCode := responsesErrorStatusCode runtime errorObj payload
    eventType := if eventType.isEmpty then Utf8.points "error" else eventType
    message := message.getD (Utf8.points "Responses upstream returned " ++
      if eventType.isEmpty then Utf8.points "a failure terminal" else eventType)
    errorCode := member "code"
    errorType := member "type"
    param := member "param" }

/-- The status of the response and whether it may be one. -/
def responseStatus (payload : Value) : PyText × Bool :=
  protocolToken runtime (runtime.safeGet.get payload ["response", "status"] .null)

/-- The status of the payload. -/
def payloadStatus (payload : Value) : PyText :=
  (protocolToken runtime (runtime.safeGet.get payload ["status"] .null)).1

/-- A response status that contradicts a failure. -/
def contradicts (status : PyText × Bool) : Bool :=
  !status.2 || (status.1 != [] && status.1 != Utf8.points "failed")

/-- `responses_failure_error` for a JSON object. -/
def responsesFailureError (payload : Value) (eventType : Bytes) : Option ResponsesSemanticError :=
  let token := (protocolToken runtime (.string eventType)).1
  if !isFailureEventType token && !(["response", "status", "error"].any (hasKey payload)) then none
  else
    let responseStatus := responseStatus runtime payload
    let payloadStatus := payloadStatus runtime payload
    match errorObject runtime payload token responseStatus.1 payloadStatus with
    | none => none
    | some errorObj =>
      let isFailure := isFailureEventType token || responseStatus.1 == Utf8.points "failed" ||
        payloadStatus == Utf8.points "failed"
      if !isFailure then none
      else if token = Utf8.points "response.failed" ∧ contradicts responseStatus = true then none
      else some (semanticError runtime errorObj payload token)

/-! ### Which events are failures -/

/-- A value that `safe_get` returns where the default is `None`. -/
def SafeGet.counts (safeGet : SafeGet) (value : Value) : Bool :=
  !value.isNull && (truthy value || safeGet.keepsFalsy)

/-- The error of the response, `None` where there is none. -/
def responseError (payload : Value) : Value := (follow payload ["response", "error"]).getD .null

/-- What `responses_failure_error` finds, by the token of the event type. -/
def isEarlyFailure (payload : Value) (eventType : Bytes) : Bool :=
  let token := (protocolToken runtime (.string eventType)).1
  if token = Utf8.points "error" then
    if hasKey payload "error" then runtime.safeGet.counts (getOrNone payload "error")
    else flattenedKeys.any (hasKey payload)
  else if token = Utf8.points "response.failed" then
    ((getOrNone payload "response").isObject || hasKey payload "error") &&
      !contradicts (responseStatus runtime payload)
  else (responseStatus runtime payload).1 == Utf8.points "failed" ||
    payloadStatus runtime payload == Utf8.points "failed"

section Failures

variable {runtime}

theorem follow_singleton (payload : Value) (key : String) :
    (follow payload [key]).getD .null = getOrNone payload key := by
  unfold follow getOrNone
  cases payload.get (Utf8.lit key) <;> rfl

theorem SafeGet.get_isNull (safeGet : SafeGet) (payload : Value) (keys : List String) :
    (safeGet.get payload keys .null).isNull = !safeGet.counts ((follow payload keys).getD .null) := by
  rw [safeGet.get_eq, SafeGet.counts]
  cases follow payload keys with
  | none => rfl
  | some leaf =>
    simp only [Option.getD_some]
    cases truthy leaf || safeGet.keepsFalsy <;> simp [Value.isNull]

/-- What `safe_get` returns of a value that counts is the value. -/
theorem SafeGet.get_of_counts (safeGet : SafeGet) {payload : Value} {keys : List String}
    (counts : safeGet.counts ((follow payload keys).getD .null) = true) :
    safeGet.get payload keys .null = (follow payload keys).getD .null := by
  rw [safeGet.get_eq]
  cases found : follow payload keys with
  | none => rfl
  | some leaf =>
    rw [found, Option.getD_some, SafeGet.counts, Bool.and_eq_true] at counts
    dsimp only
    rw [if_pos counts.2, Option.getD_some]

theorem hasKey_of_status {payload : Value} {keys : List String} {key : String}
    (token : (protocolToken runtime (runtime.safeGet.get payload (key :: keys) .null)).1 =
      Utf8.points "failed") :
    hasKey payload key = true := by
  rw [runtime.safeGet.get_eq] at token
  unfold hasKey
  cases found : payload.get (Utf8.lit key) with
  | some value => rfl
  | none =>
    have notFailed : [] ≠ Utf8.points "failed" := by decide
    rw [follow, found, Option.bind_none] at token
    exact absurd token notFailed

/-- **Which events `responses_failure_error` takes for failures.** -/
theorem responsesFailureError_isSome (payload : Value) (eventType : Bytes) :
    (responsesFailureError runtime payload eventType).isSome =
      isEarlyFailure runtime payload eventType := by
  have distinct : Utf8.points "response.failed" ≠ Utf8.points "error" := by decide
  unfold responsesFailureError isEarlyFailure errorObject isFailureEventType
  dsimp only
  by_cases isError : (protocolToken runtime (.string eventType)).1 = Utf8.points "error"
  · have other : (Utf8.points "error" = Utf8.points "response.failed") = False :=
      eq_false fun same => distinct same.symm
    simp only [isError, beq_self_eq_true, Bool.true_or, Bool.not_true, Bool.false_and,
      Bool.false_eq_true, if_false, if_true, other, false_and]
    cases hasKey payload "error" with
    | true =>
      rw [if_pos rfl, if_pos rfl, runtime.safeGet.get_isNull, follow_singleton]
      cases runtime.safeGet.counts (getOrNone payload "error") <;> rfl
    | false =>
      rw [if_neg Bool.false_ne_true, if_neg Bool.false_ne_true]
      cases flattenedKeys.any (hasKey payload) <;> rfl
  · by_cases isFailed : (protocolToken runtime (.string eventType)).1 = Utf8.points "response.failed"
    · simp only [isFailed, beq_self_eq_true, Bool.or_true, Bool.not_true, Bool.false_and,
        Bool.false_eq_true, if_false, if_true, distinct, true_and, Bool.true_or]
      cases (getOrNone payload "response").isObject <;> cases hasKey payload "error" <;>
        cases contradicts (responseStatus runtime payload) <;> rfl
    · have noToken : ((protocolToken runtime (.string eventType)).1 == Utf8.points "error" ||
          (protocolToken runtime (.string eventType)).1 == Utf8.points "response.failed") = false := by
        rw [beq_false_of_ne isError, beq_false_of_ne isFailed]
        rfl
      simp only [noToken, isError, isFailed, if_false, false_and, Bool.not_false, Bool.true_and,
        Bool.false_or]
      by_cases responseFails : (responseStatus runtime payload).1 = Utf8.points "failed"
      · have keyed : ["response", "status", "error"].any (hasKey payload) = true :=
          List.any_eq_true.mpr ⟨"response", by simp, hasKey_of_status responseFails⟩
        rw [keyed, responseFails]
        simp
      · by_cases payloadFails : payloadStatus runtime payload = Utf8.points "failed"
        · have keyed : ["response", "status", "error"].any (hasKey payload) = true :=
            List.any_eq_true.mpr ⟨"status", by simp, hasKey_of_status payloadFails⟩
          rw [keyed, payloadFails]
          simp [responseFails]
        · have neither : ((responseStatus runtime payload).1 == Utf8.points "failed" ||
              payloadStatus runtime payload == Utf8.points "failed") = false := by
            rw [beq_false_of_ne responseFails, beq_false_of_ne payloadFails]
            rfl
          rw [neither]
          cases ["response", "status", "error"].any (hasKey payload) with
          | false => rfl
          | true =>
            rw [if_neg responseFails, if_neg payloadFails]
            cases (getOrNone payload "error").isObject <;> rfl

end Failures

end UniApi.Upstream
