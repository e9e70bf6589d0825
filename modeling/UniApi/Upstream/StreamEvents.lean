/-
**Stream events in Python: failures, and what ends the retryable phase.**

* `responsesFailureHttpException_isSome`: which events are failures, by their types, statuses and errors;
* `fallbackErrorObject_counts`: which of them the fallback finds.
-/

import UniApi.Upstream.ResponsesErrors

namespace UniApi.Upstream

open UniApi.Lib UniApi.Front

variable (runtime : StreamRuntime)

/-! ### Failures -/

/-- `str(value)`. -/
def strOf (value : Value) : PyText :=
  match value with
  | .string text => pyText text
  | other => runtime.shown other

/-- `str(value or "")`. -/
def strOrEmpty (value : Value) : PyText := if truthy value then strOf runtime value else []

/-- `str(value or "").strip().lower()`. -/
def looseToken (value : Value) : PyText := runtime.lower (PyText.strip (strOrEmpty runtime value))

/-- The error of a payload that `responses_failure_error` takes for none. -/
def fallbackErrorObject (payload : Value) : Value :=
  let responseStatus := looseToken runtime
    (runtime.safeGet.get payload ["response", "status"] (.string []))
  let payloadStatus := looseToken runtime (getOrNone payload "status")
  let payloadType := looseToken runtime (getOrNone payload "type")
  let errorObj :=
    if payloadType = Utf8.points "error" ∧ (getOrNone payload "error").isNull = false then
      getOrNone payload "error"
    else if payloadType = Utf8.points "response.failed" then
      runtime.safeGet.get payload ["response", "error"] .null
    else if payloadStatus = Utf8.points "failed" then getOrNone payload "error"
    else if responseStatus = Utf8.points "failed" then
      runtime.safeGet.get payload ["response", "error"] .null
    else if (getOrNone payload "error").isObject then getOrNone payload "error"
    else .null
  if errorObj.isNull && (payloadStatus == Utf8.points "failed" || responseStatus == Utf8.points "failed")
  then .object [(Utf8.lit "message", .string (Utf8.lit "Responses upstream returned status=failed"))]
  else errorObj

/-- The payload that stands for an error alone. -/
def fallbackPayload (errorObj : Value) : Value :=
  .object [(Utf8.lit "error", errorObj), (Utf8.lit "type", .string (Utf8.lit "error"))]

/-- `_responses_failure_http_exception` for a JSON object. -/
def responsesFailureHttpException (payload : Value) (eventType : Bytes) :
    Option ResponsesSemanticError :=
  match responsesFailureError runtime payload eventType with
  | some error => some error
  | none =>
    let errorObj := fallbackErrorObject runtime payload
    if errorObj.isNull then none
    else responsesFailureError runtime (fallbackPayload errorObj) (Utf8.lit "error")

/-- The payload status without a bound says `failed`. -/
def payloadSaysFailed (payload : Value) : Bool :=
  looseToken runtime (getOrNone payload "status") == Utf8.points "failed"

/-- The response status without a bound says `failed`. -/
def responseSaysFailed (payload : Value) : Bool :=
  looseToken runtime (runtime.safeGet.get payload ["response", "status"] (.string [])) ==
    Utf8.points "failed"

/-- What the fallback finds. -/
def isLateFailure (payload : Value) : Bool :=
  let counts := runtime.safeGet.counts
  let payloadType := looseToken runtime (getOrNone payload "type")
  if payloadType = Utf8.points "error" ∧ (getOrNone payload "error").isNull = false then
    counts (getOrNone payload "error")
  else if payloadType = Utf8.points "response.failed" then
    counts (responseError payload) || payloadSaysFailed runtime payload ||
      responseSaysFailed runtime payload
  else if payloadSaysFailed runtime payload then
    (getOrNone payload "error").isNull || counts (getOrNone payload "error")
  else if responseSaysFailed runtime payload then true
  else (getOrNone payload "error").isObject && counts (getOrNone payload "error")

section Failures

variable {runtime}

theorem strOrEmpty_string (text : Bytes) : strOrEmpty runtime (.string text) = pyText text := by
  unfold strOrEmpty truthy
  cases text with
  | nil => exact (pyText_eq_nil.mpr rfl).symm
  | cons first rest => rfl

theorem looseToken_of_token {value : Value} {word : String} (isWord : word ∈ protocolWords)
    (token : (protocolToken runtime value).1 = Utf8.points word) :
    looseToken runtime value = Utf8.points word := by
  obtain ⟨text, rfl, lowered⟩ := token_eq_word isWord token
  rw [looseToken, strOrEmpty_string, lowered]

/-- A bounded response status that says `failed` says it without a bound as well. -/
theorem responseSaysFailed_of_status {payload : Value}
    (status : (responseStatus runtime payload).1 = Utf8.points "failed") :
    responseSaysFailed runtime payload = true := by
  have loose := looseToken_of_token (by decide) status
  obtain ⟨text, isText, -⟩ := token_eq_word (by decide) status
  unfold responseSaysFailed
  rw [beq_iff_eq, ← loose]
  congr 1
  rw [runtime.safeGet.get_eq] at isText ⊢
  rw [runtime.safeGet.get_eq]
  cases found : follow payload ["response", "status"] with
  | none => rw [found] at isText; cases isText
  | some leaf =>
    rw [found] at isText
    dsimp only at isText ⊢
    by_cases kept : (truthy leaf || runtime.safeGet.keepsFalsy) = true
    · rw [if_pos kept, if_pos kept]
    · rw [if_neg kept] at isText
      cases isText

/-- A bounded payload status that says `failed` says it without a bound as well. -/
theorem payloadSaysFailed_of_status {payload : Value}
    (status : payloadStatus runtime payload = Utf8.points "failed") :
    payloadSaysFailed runtime payload = true := by
  have loose := looseToken_of_token (by decide) status
  obtain ⟨text, isText, -⟩ := token_eq_word (by decide) status
  unfold payloadSaysFailed
  rw [beq_iff_eq, ← loose, ← follow_singleton]
  congr 1
  rw [runtime.safeGet.get_eq] at isText ⊢
  cases found : follow payload ["status"] with
  | none => rfl
  | some leaf =>
    rw [found] at isText
    dsimp only at isText ⊢
    by_cases kept : (truthy leaf || runtime.safeGet.keepsFalsy) = true
    · rw [if_pos kept, Option.getD_some]
    · rw [if_neg kept] at isText
      cases isText

theorem token_error :
    (protocolToken runtime (.string (Utf8.lit "error"))).1 = Utf8.points "error" :=
  token_of_eqIgnoreAsciiCase (by decide) (by decide)

/-- The fallback takes an error for a failure if `safe_get` returns it. -/
theorem fallback_isSome (errorObj : Value) :
    (responsesFailureError runtime (fallbackPayload errorObj) (Utf8.lit "error")).isSome =
      runtime.safeGet.counts errorObj := by
  have found : (fallbackPayload errorObj).get (Utf8.lit "error") = some errorObj := by
    simp [fallbackPayload, Value.get, Value.asObject, JsonMap.get]
  have keyed : hasKey (fallbackPayload errorObj) "error" = true := by
    rw [hasKey, found, Option.isSome_some]
  rw [responsesFailureError_isSome, isEarlyFailure, if_pos token_error, if_pos keyed, getOrNone, found, Option.getD_some]

theorem counts_safeGet_responseError (payload : Value) :
    runtime.safeGet.counts (runtime.safeGet.get payload ["response", "error"] .null) =
      runtime.safeGet.counts (responseError payload) := by
  cases counted : runtime.safeGet.counts (responseError payload) with
  | true => rw [runtime.safeGet.get_of_counts counted]; exact counted
  | false =>
    have isNull := runtime.safeGet.get_isNull payload ["response", "error"]
    rw [show runtime.safeGet.counts ((follow payload ["response", "error"]).getD .null) = false from
      counted, Bool.not_false] at isNull
    rw [SafeGet.counts, isNull]
    rfl

/-- **Which events the fallback takes for failures.** -/
theorem fallbackErrorObject_counts (payload : Value) :
    runtime.safeGet.counts (fallbackErrorObject runtime payload) = isLateFailure runtime payload := by
  have ofResponse := @counts_safeGet_responseError runtime payload
  have countsOrNull : (runtime.safeGet.get payload ["response", "error"] .null).isNull =
      !runtime.safeGet.counts (runtime.safeGet.get payload ["response", "error"] .null) := by
    rw [ofResponse]
    exact runtime.safeGet.get_isNull payload ["response", "error"]
  have noneCounts : runtime.safeGet.counts .null = false := rfl
  have default_counts : runtime.safeGet.counts (.object
      [(Utf8.lit "message", .string (Utf8.lit "Responses upstream returned status=failed"))]) = true :=
    rfl
  have counts_isNull : ∀ value : Value, value.isNull = true → runtime.safeGet.counts value = false :=
    fun value isNull => by rw [SafeGet.counts, isNull]; rfl
  unfold fallbackErrorObject isLateFailure payloadSaysFailed responseSaysFailed
  dsimp only
  generalize getOrNone payload "error" = errorObj
  generalize runtime.safeGet.get payload ["response", "error"] .null = found at ofResponse countsOrNull ⊢
  generalize looseToken runtime (getOrNone payload "type") = payloadType
  generalize looseToken runtime (getOrNone payload "status") = payloadStatus
  generalize looseToken runtime (runtime.safeGet.get payload ["response", "status"] (.string [])) =
    responseStatus
  by_cases typeError : payloadType = Utf8.points "error" ∧ errorObj.isNull = false
  · rw [if_pos typeError, if_pos typeError, typeError.2, Bool.false_and, if_neg Bool.false_ne_true]
  rw [if_neg typeError, if_neg typeError]
  by_cases typeFailed : payloadType = Utf8.points "response.failed"
  · rw [if_pos typeFailed, if_pos typeFailed, ← ofResponse]
    cases isNull : found.isNull with
    | true =>
      rw [counts_isNull found isNull, Bool.false_or, Bool.true_and]
      cases payloadStatus == Utf8.points "failed" || responseStatus == Utf8.points "failed" with
      | true => exact default_counts
      | false => exact counts_isNull found isNull
    | false =>
      rw [isNull, Bool.false_eq, Bool.not_eq_false'] at countsOrNull
      rw [Bool.false_and, if_neg Bool.false_ne_true, countsOrNull]
      rfl
  rw [if_neg typeFailed, if_neg typeFailed]
  by_cases payloadFails : payloadStatus = Utf8.points "failed"
  · rw [if_pos payloadFails, beq_iff_eq.mpr payloadFails, if_pos rfl, Bool.true_or, Bool.and_true]
    cases isNull : errorObj.isNull with
    | true => exact default_counts
    | false => rw [if_neg Bool.false_ne_true, Bool.false_or]
  rw [if_neg payloadFails, beq_false_of_ne payloadFails, if_neg Bool.false_ne_true, Bool.false_or]
  by_cases responseFails : responseStatus = Utf8.points "failed"
  · rw [if_pos responseFails, beq_iff_eq.mpr responseFails, if_pos rfl, Bool.and_true]
    cases isNull : found.isNull with
    | true => exact default_counts
    | false =>
      rw [isNull, Bool.false_eq, Bool.not_eq_false'] at countsOrNull
      rw [if_neg Bool.false_ne_true, countsOrNull]
  rw [if_neg responseFails, beq_false_of_ne responseFails, Bool.and_false, if_neg Bool.false_ne_true,
    if_neg Bool.false_ne_true]
  cases errorObj.isObject with
  | true => rw [if_pos rfl, Bool.true_and]
  | false => rw [if_neg Bool.false_ne_true, Bool.false_and, noneCounts]

/-- **Which events are failures in Python.** -/
theorem responsesFailureHttpException_isSome (payload : Value) (eventType : Bytes) :
    (responsesFailureHttpException runtime payload eventType).isSome =
      (isEarlyFailure runtime payload eventType || isLateFailure runtime payload) := by
  unfold responsesFailureHttpException
  rw [← responsesFailureError_isSome, ← fallbackErrorObject_counts]
  cases responsesFailureError runtime payload eventType with
  | some error => rfl
  | none =>
    dsimp only
    rw [Option.isSome_none, Bool.false_or]
    cases isNull : (fallbackErrorObject runtime payload).isNull with
    | true => simp [SafeGet.counts, isNull]
    | false =>
      rw [if_neg Bool.false_ne_true]
      exact fallback_isSome _

end Failures

/-! ### Output -/

/-- A member that is a string and not empty. -/
def hasTextMember (value : Value) (field : String) : Bool :=
  (getOrNone value field).asStr.any (!·.isEmpty)

/-- `_responses_part_has_text`. -/
def responsesPartHasText (part : Value) : Bool :=
  part.isObject && (hasTextMember part "text" || hasTextMember part "refusal")

/-- `_responses_item_has_substantive_output`. -/
def responsesItemHasSubstantiveOutput (item : Value) : Bool :=
  if !item.isObject then false
  else if (getOrNone item "content").asArray.any (·.any responsesPartHasText) then true
  else if ["function_call", "tool_call"].any fun itemType =>
      strOrEmpty runtime (getOrNone item "type") == Utf8.points itemType then
    ["name", "arguments", "call_id"].any fun field => truthy (getOrNone item field)
  else false

/-- `first or second`. -/
def pyOr (first second : Value) : Value := if truthy first then first else second

/-- `_responses_stream_event_has_real_output`. -/
def responsesStreamEventHasRealOutput (eventType : Bytes) (payload : Value) : Bool :=
  if !payload.isObject then false
  else if (Utf8.lit "response.").isPrefixOf eventType && (Utf8.lit ".delta").isSuffixOf eventType
  then !(strOrEmpty runtime (getOrNone payload "delta")).isEmpty
  else if ["response.content_part.added", "response.content_part.done"].any
      (Utf8.lit · == eventType) then
    responsesPartHasText (getOrNone payload "part")
  else if eventType = Utf8.lit "response.output_item.done" then
    responsesItemHasSubstantiveOutput runtime (getOrNone payload "item")
  else if (Utf8.lit "response.").isPrefixOf eventType && (Utf8.lit ".done").isSuffixOf eventType
  then !(strOrEmpty runtime (pyOr (pyOr (getOrNone payload "text") (getOrNone payload "refusal"))
    (getOrNone payload "arguments"))).isEmpty
  else false

/-- `RESPONSES_STREAM_PREFLIGHT_EVENTS`. -/
def preflightEvents : List String :=
  ["response.created", "response.in_progress", "response.queued", "keepalive"]

/-- `_responses_stream_event_commits`. -/
def responsesStreamEventCommits (eventType : Bytes) (payload : Value) (commitPolicy : String)
    (precommitSemanticGuard : Bool) : Bool :=
  if preflightEvents.any (Utf8.lit · == eventType) then
    !precommitSemanticGuard && eventType == Utf8.lit "response.created"
  else if ["response.completed", "response.incomplete"].any (Utf8.lit · == eventType) then true
  else if commitPolicy = "completed_usage" then false
  else responsesStreamEventHasRealOutput runtime eventType payload

/-! ### A plain interpreter -/

/-- What `str(..)` shows of values that are no strings, with one number and without members. -/
def plainShown : Value → PyText
  | .null => Utf8.points "None"
  | .bool true => Utf8.points "True"
  | .bool false => Utf8.points "False"
  | .array _ => Utf8.points "[]"
  | .object _ => Utf8.points "\x7b\x7d"
  | .number _ | .string _ => Utf8.points "0"

theorem plainShown_mem (value : Value) :
    plainShown value ∈ ["None", "True", "False", "[]", "\x7b\x7d", "0"].map Utf8.points := by
  cases value with
  | bool value => cases value <;> simp [plainShown]
  | null | number value | string text | array items | object members => simp [plainShown]

/-- An interpreter that knows ASCII, and a `safe_get` that returns what it finds. -/
def StreamRuntime.plain : StreamRuntime :=
  { PyText.CaseTables.ascii with
    safeGet :=
      { get := fun data keys default => (follow data keys).getD default
        keepsFalsy := true
        get_eq := fun data keys default => by
          cases follow data keys <;> simp }
    shown := plainShown
    shown_null := rfl
    shown_nonempty := fun value _ empty => by
      have all : (["None", "True", "False", "[]", "\x7b\x7d", "0"].map Utf8.points).all (· != []) := by
        decide
      simpa [empty] using List.all_eq_true.mp all _ (plainShown_mem value)
    shown_word := fun value _ word isWord same => by
      have all : (["None", "True", "False", "[]", "\x7b\x7d", "0"].map Utf8.points).all fun text =>
          ["failed", "error", "response.failed"].all fun word =>
            (PyText.strip text).map PyText.lowerAscii != Utf8.points word := by
        decide
      have differs := List.all_eq_true.mp (List.all_eq_true.mp all _ (plainShown_mem value)) word isWord
      exact bne_iff_ne.mp differs same
    shown_item := fun value _ word isWord same => by
      have all : (["None", "True", "False", "[]", "\x7b\x7d", "0"].map Utf8.points).all fun text =>
          ["function_call", "tool_call"].all fun word => text != Utf8.points word := by
        decide
      have differs := List.all_eq_true.mp (List.all_eq_true.mp all _ (plainShown_mem value)) word isWord
      exact bne_iff_ne.mp differs same
    truncFloat := fun _ => none
    digit := fun point => if 48 ≤ point ∧ point ≤ 57 then some (point - 48) else none
    digit_ascii := fun _ _ => rfl }

end UniApi.Upstream
