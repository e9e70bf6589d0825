/-
**The two planes on one stream event: is it a failure, and does it end the retryable phase?**

The front compares types and statuses as they are, apart from ASCII case, and takes a member for output
if it is a string. The Python plane strips and lowers types and statuses first, has a fallback, and
takes any truthy member for output.

* `failure_agrees_iff`: when both planes take an event for a failure;
* `output_agrees_iff`: when both planes see output in an event;
* `classified_alike_iff`: both together, for every event that the validators accept.
-/

import UniApi.Front.Processor
import UniApi.Upstream.StreamEvents

namespace UniApi.CrossPlane

open UniApi.Lib UniApi.Front UniApi.Upstream

variable (runtime : StreamRuntime) (payload : Value) (eventType : Bytes)

/-! ### Failures -/

/-- A status `failed` in any ASCII case, or an error that is an object. -/
def plainSign : Bool :=
  saysFailed (payload.getStr (Utf8.lit "status")) ||
    saysFailed ((payload.get (Utf8.lit "response")).bind (·.getStr (Utf8.lit "status"))) ||
    (getOrNone payload "error").isObject

/-- The type, stripped and lowered within its bound, is a word. -/
def typeReads (word : String) : Bool :=
  (protocolToken runtime (.string eventType)).1 == Utf8.points word

/-- The type, stripped and lowered without a bound, is a word. -/
def typeReadsUnbounded (word : String) : Bool :=
  looseToken runtime (.string eventType) == Utf8.points word

/-- A status within its bound says `failed`. -/
def boundedStatusFails : Bool :=
  (responseStatus runtime payload).1 == Utf8.points "failed" ||
    payloadStatus runtime payload == Utf8.points "failed"

/-- A failure that the Python plane dismisses: its error is not returned by `safe_get`, or its type
reads `response.failed` and nothing else in the response says so. -/
def dismissed : Bool :=
  let counts := runtime.safeGet.counts
  if typeReads runtime eventType "error" then
    !(getOrNone payload "error").isNull && !counts (getOrNone payload "error")
  else if typeReadsUnbounded runtime eventType "response.failed" then
    (!typeReads runtime eventType "response.failed" || contradicts (responseStatus runtime payload)) &&
      !counts (responseError payload) && !payloadSaysFailed runtime payload &&
      !responseSaysFailed runtime payload
  else
    !boundedStatusFails runtime payload && !counts (getOrNone payload "error") &&
      (!responseSaysFailed runtime payload || payloadSaysFailed runtime payload ||
        typeReadsUnbounded runtime eventType "error")

/-- A sign of a failure that only the Python plane reads: a type or a status that is one of the words
when it is stripped and lowered, or an error that is no object behind such a type. -/
def looseSign : Bool :=
  let counts := runtime.safeGet.counts
  if typeReads runtime eventType "error" then
    counts (getOrNone payload "error") ||
      !hasKey payload "error" && flattenedKeys.any (hasKey payload) ||
      (getOrNone payload "error").isNull &&
        (payloadSaysFailed runtime payload || responseSaysFailed runtime payload)
  else if typeReadsUnbounded runtime eventType "response.failed" then
    typeReads runtime eventType "response.failed" &&
        ((getOrNone payload "response").isObject || hasKey payload "error") &&
        !contradicts (responseStatus runtime payload) ||
      counts (responseError payload) || payloadSaysFailed runtime payload ||
      responseSaysFailed runtime payload
  else if typeReadsUnbounded runtime eventType "error" && !(getOrNone payload "error").isNull then
    boundedStatusFails runtime payload || counts (getOrNone payload "error")
  else if payloadSaysFailed runtime payload then
    boundedStatusFails runtime payload || (getOrNone payload "error").isNull ||
      counts (getOrNone payload "error")
  else responseSaysFailed runtime payload

/-- **Failures are read alike.** -/
structure FailureAlike : Prop where
  /-- `safe_get` returns the error of an error event. -/
  ofError : eventType = Utf8.lit "error" → runtime.safeGet.counts (getOrNone payload "error") = true
  /-- A failed response whose status is another one has an error, or a status that says so unbounded. -/
  ofFailed : eventType = Utf8.lit "response.failed" →
    contradicts (responseStatus runtime payload) = true →
    runtime.safeGet.counts (responseError payload) = true ∨ payloadSaysFailed runtime payload = true ∨
      responseSaysFailed runtime payload = true
  /-- Of another type, a plain sign is not dismissed. -/
  kept : eventType ∉ [Utf8.lit "error", Utf8.lit "response.failed"] → plainSign payload = true →
    dismissed runtime payload eventType = false
  /-- Of another type without a plain sign, there is no loose one. -/
  plain : eventType ∉ [Utf8.lit "error", Utf8.lit "response.failed"] → plainSign payload = false →
    looseSign runtime payload eventType = false

section Failures

variable {runtime payload eventType}

/-- A status that says `failed` in any ASCII case is its token. -/
theorem token_of_saysFailed {keys : List String} {text : Bytes}
    (found : follow payload keys = some (.string text))
    (fails : eqIgnoreAsciiCase text (Utf8.lit "failed") = true) :
    (protocolToken runtime (runtime.safeGet.get payload keys .null)).1 = Utf8.points "failed" := by
  have token : (protocolToken runtime (.string text)).1 = Utf8.points "failed" :=
    token_of_eqIgnoreAsciiCase (by decide) fails
  have isTruthy : truthy (.string text) = true := by
    cases text with
    | nil =>
      rw [eqIgnoreAsciiCase, Utf8.lit_ofList] at fails
      cases fails
    | cons first rest => rfl
  rw [runtime.safeGet.get_eq, found]
  dsimp only
  rw [isTruthy, Bool.true_or, if_pos rfl, token]

/-- A plain sign is a bounded status, or an error that is an object. -/
theorem boundedStatusFails_of_plainSign (sign : plainSign payload = true) :
    boundedStatusFails runtime payload = true ∨ (getOrNone payload "error").isObject = true := by
  unfold plainSign at sign
  rw [Bool.or_eq_true, Bool.or_eq_true] at sign
  unfold boundedStatusFails
  rw [Bool.or_eq_true, beq_iff_eq, beq_iff_eq]
  rcases sign with (ofPayload | ofResponse) | isObject
  · obtain ⟨text, isText, fails⟩ := (Option.any_eq_true _ _).mp ofPayload
    obtain ⟨value, isValue, isString⟩ := Option.bind_eq_some_iff.mp isText
    cases value <;> simp only [Value.asStr, reduceCtorEq, Option.some.injEq] at isString
    have found : follow payload ["status"] = some (.string text) := by
      rw [follow, isValue, Option.bind_some, follow, isString]
    exact .inl (.inr (token_of_saysFailed found fails))
  · obtain ⟨text, isText, fails⟩ := (Option.any_eq_true _ _).mp ofResponse
    obtain ⟨response, isResponse, inResponse⟩ := Option.bind_eq_some_iff.mp isText
    obtain ⟨value, isValue, isString⟩ := Option.bind_eq_some_iff.mp inResponse
    cases value <;> simp only [Value.asStr, reduceCtorEq, Option.some.injEq] at isString
    have found : follow payload ["response", "status"] = some (.string text) := by
      rw [follow, isResponse, Option.bind_some, follow, isValue, Option.bind_some, follow, isString]
    exact .inl (.inl (token_of_saysFailed found fails))
  · exact .inr isObject

theorem saysFailed_of_bounded (bounded : boundedStatusFails runtime payload = true) :
    payloadSaysFailed runtime payload = true ∨ responseSaysFailed runtime payload = true := by
  unfold boundedStatusFails at bounded
  rw [Bool.or_eq_true, beq_iff_eq, beq_iff_eq] at bounded
  exact bounded.symm.imp payloadSaysFailed_of_status responseSaysFailed_of_status

/-- A type that reads a word within its bound reads it without one. -/
theorem typeReadsUnbounded_of_typeReads {word : String} (isWord : word ∈ protocolWords)
    (reads : typeReads runtime eventType word = true) :
    typeReadsUnbounded runtime eventType word = true :=
  beq_iff_eq.mpr (looseToken_of_token isWord (beq_iff_eq.mp reads))

/-- What the Python plane finds, in the words of this module. -/
theorem isFailure_eq (typed : payload.getStr (Utf8.lit "type") = some eventType) :
    (responsesFailureHttpException runtime payload eventType).isSome =
      ((if typeReads runtime eventType "error" then
          if hasKey payload "error" then runtime.safeGet.counts (getOrNone payload "error")
          else flattenedKeys.any (hasKey payload)
        else if typeReads runtime eventType "response.failed" then
          ((getOrNone payload "response").isObject || hasKey payload "error") &&
            !contradicts (responseStatus runtime payload)
        else boundedStatusFails runtime payload) ||
      (if typeReadsUnbounded runtime eventType "error" && !(getOrNone payload "error").isNull then
          runtime.safeGet.counts (getOrNone payload "error")
        else if typeReadsUnbounded runtime eventType "response.failed" then
          runtime.safeGet.counts (responseError payload) || payloadSaysFailed runtime payload ||
            responseSaysFailed runtime payload
        else if payloadSaysFailed runtime payload then
          (getOrNone payload "error").isNull || runtime.safeGet.counts (getOrNone payload "error")
        else if responseSaysFailed runtime payload then true
        else (getOrNone payload "error").isObject &&
          runtime.safeGet.counts (getOrNone payload "error"))) := by
  have isType : getOrNone payload "type" = .string eventType := by
    obtain ⟨value, isValue, isString⟩ := Option.bind_eq_some_iff.mp typed
    cases value <;> simp only [Value.asStr, reduceCtorEq, Option.some.injEq] at isString
    rw [getOrNone, isValue, Option.getD_some, isString]
  rw [responsesFailureHttpException_isSome]
  unfold isEarlyFailure isLateFailure boundedStatusFails typeReads typeReadsUnbounded
  rw [isType]
  simp only [beq_iff_eq, Bool.and_eq_true, Bool.not_eq_true']

theorem not_reads_error_of_failed (reads : typeReadsUnbounded runtime eventType "response.failed" = true) :
    typeReadsUnbounded runtime eventType "error" = false := by
  have distinct : Utf8.points "response.failed" ≠ Utf8.points "error" := by
    rw [Utf8.points_ofList, Utf8.points_ofList]
    decide
  unfold typeReadsUnbounded at reads ⊢
  rw [beq_iff_eq.mp reads]
  exact beq_false_of_ne distinct

theorem typeReads_self {word : String} (isWord : word ∈ protocolWords) :
    typeReads runtime (Utf8.lit word) word = true :=
  beq_iff_eq.mpr (token_of_eqIgnoreAsciiCase isWord (beq_self_eq_true _))

/-- **An error event** is a failure in Python exactly if `safe_get` returns its error. -/
theorem error_isFailure (typed : payload.getStr (Utf8.lit "type") = some (Utf8.lit "error"))
    (keyed : (getOrNone payload "error").isNull = false) :
    (responsesFailureHttpException runtime payload (Utf8.lit "error")).isSome =
      runtime.safeGet.counts (getOrNone payload "error") := by
  have reads : typeReads runtime (Utf8.lit "error") "error" = true :=
    typeReads_self (by decide)
  have hasError : hasKey payload "error" = true := by
    unfold hasKey
    unfold getOrNone at keyed
    cases found : payload.get (Utf8.lit "error") with
    | none => rw [found] at keyed; cases keyed
    | some value => rfl
  rw [isFailure_eq typed, reads, typeReadsUnbounded_of_typeReads (by decide) reads, hasError, keyed]
  simp

/-- **A failed response** is a failure in Python unless its status contradicts it and nothing else says
so. -/
theorem failed_isFailure (typed : payload.getStr (Utf8.lit "type") = some (Utf8.lit "response.failed"))
    (response : (getOrNone payload "response").isObject = true) :
    (responsesFailureHttpException runtime payload (Utf8.lit "response.failed")).isSome =
      (!contradicts (responseStatus runtime payload) ||
        (runtime.safeGet.counts (responseError payload) || payloadSaysFailed runtime payload ||
          responseSaysFailed runtime payload)) := by
  have reads : typeReads runtime (Utf8.lit "response.failed") "response.failed" = true :=
    typeReads_self (by decide)
  have unbounded := typeReadsUnbounded_of_typeReads (by decide) reads
  have notError := not_reads_error_of_failed unbounded
  have notBounded : typeReads runtime (Utf8.lit "response.failed") "error" = false := by
    rw [Bool.eq_false_iff]
    intro isError
    rw [typeReadsUnbounded_of_typeReads (by decide) isError] at notError
    cases notError
  rw [isFailure_eq typed, reads, unbounded, notError, notBounded, response]
  simp

/-- An error that counts or is an object is there. -/
theorem error_facts : (runtime.safeGet.counts (getOrNone payload "error") = true →
      (getOrNone payload "error").isNull = false) ∧
    ((getOrNone payload "error").isObject = true → (getOrNone payload "error").isNull = false) ∧
    (hasKey payload "error" = false → (getOrNone payload "error").isNull = true) := by
  refine ⟨?_, ?_, ?_⟩
  · intro counts
    unfold SafeGet.counts at counts
    cases isNull : (getOrNone payload "error").isNull with
    | true => rw [isNull] at counts; cases counts
    | false => rfl
  · intro isObject
    cases found : getOrNone payload "error" <;> rw [found] at isObject <;> first | rfl | cases isObject
  · intro noKey
    unfold hasKey at noKey
    rw [Option.isSome_eq_false_iff, Option.isNone_iff_eq_none] at noKey
    rw [getOrNone, noKey]
    rfl

/-- **The Python plane sees a failure** behind a plain sign unless it dismisses it, and without one by a
loose sign. -/
theorem isFailure_of_sign (typed : payload.getStr (Utf8.lit "type") = some eventType) :
    (responsesFailureHttpException runtime payload eventType).isSome =
      if plainSign payload then !dismissed runtime payload eventType
      else looseSign runtime payload eventType := by
  obtain ⟨countsThere, objectThere, noKey⟩ := @error_facts runtime payload
  have bounded := @boundedStatusFails_of_plainSign runtime payload
  have noObject : plainSign payload = false → (getOrNone payload "error").isObject = false := by
    intro noSign
    unfold plainSign at noSign
    exact (Bool.or_eq_false_iff.mp noSign).2
  have unbounded := @saysFailed_of_bounded runtime payload
  have errorReads := @typeReadsUnbounded_of_typeReads runtime eventType "error" (by decide)
  have failedReads := @typeReadsUnbounded_of_typeReads runtime eventType "response.failed"
    (by decide)
  have oneWord := @not_reads_error_of_failed runtime eventType
  rw [isFailure_eq typed, dismissed, looseSign]
  cases isError : typeReads runtime eventType "error" with
  | true =>
    rw [if_pos rfl, errorReads isError]
    cases keyed : hasKey payload "error" <;> grind
  | false =>
    rw [if_neg Bool.false_ne_true]
    cases isFailed : typeReadsUnbounded runtime eventType "response.failed" with
    | true =>
      rw [oneWord isFailed]
      cases typeReads runtime eventType "response.failed" <;> grind
    | false =>
      have notReads : typeReads runtime eventType "response.failed" = false := by
        rw [Bool.eq_false_iff]
        intro reads
        rw [failedReads reads] at isFailed
        cases isFailed
      rw [notReads]
      cases isBounded : boundedStatusFails runtime payload <;>
        cases sign : plainSign payload <;> grind

/-- The checks of the terminal validator on an error or a failed response. -/
theorem checked_of_validateTerminal (accepted : validateTerminal eventType payload = .ok ()) :
    (eventType = Utf8.lit "error" → (getOrNone payload "error").isNull = false) ∧
      (eventType = Utf8.lit "response.failed" → (getOrNone payload "response").isObject = true) := by
  have isObject : isTerminalEventType eventType = true →
      ∃ object, payload.asObject = some object := by
    intro terminal
    cases found : payload.asObject with
    | some object => exact ⟨object, rfl⟩
    | none => rw [validateTerminal, terminal, found] at accepted; cases accepted
  have member : ∀ object key, payload.asObject = some object →
      getOrNone payload key = (object.get (Utf8.lit key)).getD .null := by
    intro object key found
    rw [getOrNone, Value.get, found, Option.bind_some]
  constructor
  · rintro rfl
    have terminal : isTerminalEventType (Utf8.lit "error") = true :=
      List.contains_iff_mem.mpr (by simp [terminalEventTypes])
    obtain ⟨object, found⟩ := isObject terminal
    rw [member object "error" found]
    have notResponse : startsWith (Utf8.lit "error") "response." = false := by
      rw [startsWith, Utf8.lit_ofList, Utf8.lit_ofList]
      rfl
    rw [validateTerminal, terminal, found] at accepted
    simp only [Bool.not_true, Bool.false_eq_true, if_false, notResponse, Bool.false_and, decide_true,
      Bool.true_and] at accepted
    cases isError : object.get (Utf8.lit "error") with
    | none => rw [isError] at accepted; cases accepted
    | some error =>
      rw [Option.getD_some, Bool.eq_false_iff]
      intro isNull
      rw [isError, Option.all_some, isNull] at accepted
      cases accepted
  · rintro rfl
    have terminal : isTerminalEventType (Utf8.lit "response.failed") = true :=
      List.contains_iff_mem.mpr (by simp [terminalEventTypes])
    obtain ⟨object, found⟩ := isObject terminal
    rw [member object "response" found]
    have ofResponse : startsWith (Utf8.lit "response.failed") "response." = true := by
      rw [startsWith, Utf8.lit_ofList, Utf8.lit_ofList]
      rfl
    rw [validateTerminal, terminal, found] at accepted
    simp only [Bool.not_true, Bool.false_eq_true, if_false, ofResponse, Bool.true_and] at accepted
    cases isResponse : object.get (Utf8.lit "response") with
    | none => rw [isResponse] at accepted; cases accepted
    | some response =>
      rw [Option.getD_some]
      by_contra notObject
      rw [isResponse, Option.any_some, Bool.eq_false_iff.mpr notObject] at accepted
      cases accepted

/-- A failure of the front is one by its type or by a plain sign. -/
theorem semanticFailure_eq :
    semanticFailure eventType payload =
      ([Utf8.lit "error", Utf8.lit "response.failed"].contains eventType || plainSign payload) := by
  have sameError : (payload.get (Utf8.lit "error")).any Value.isObject =
      (getOrNone payload "error").isObject := by
    unfold getOrNone
    cases payload.get (Utf8.lit "error") <;> rfl
  unfold semanticFailure plainSign
  rw [sameError]
  cases [Utf8.lit "error", Utf8.lit "response.failed"].contains eventType <;> rfl

/-- **When both planes take an event for a failure.** -/
theorem failure_agrees_iff (typed : payload.getStr (Utf8.lit "type") = some eventType)
    (accepted : validateTerminal eventType payload = .ok ()) :
    (semanticFailure eventType payload = true ↔
        (responsesFailureHttpException runtime payload eventType).isSome = true) ↔
      FailureAlike runtime payload eventType := by
  obtain ⟨hasError, hasResponse⟩ := checked_of_validateTerminal accepted
  have distinct : Utf8.lit "error" ≠ Utf8.lit "response.failed" := by
    rw [Utf8.lit_ofList, Utf8.lit_ofList]
    exact fun same => absurd (congrArg List.length same) (by decide)
  by_cases isError : eventType = Utf8.lit "error"
  · have fails : semanticFailure eventType payload = true := by
      rw [semanticFailure, isError]
      rfl
    rw [fails, isError, error_isFailure (isError ▸ typed) (hasError isError)]
    constructor
    · intro agrees
      exact ⟨fun _ => agrees.mp rfl, fun other => absurd other distinct,
        fun other => absurd List.mem_cons_self other, fun other => absurd List.mem_cons_self other⟩
    · exact fun alike => ⟨fun _ => alike.ofError rfl, fun _ => rfl⟩
  by_cases isFailed : eventType = Utf8.lit "response.failed"
  · have fails : semanticFailure eventType payload = true := by
      rw [semanticFailure, isFailed]
      rfl
    have listed : Utf8.lit "response.failed" ∈ [Utf8.lit "error", Utf8.lit "response.failed"] :=
      List.mem_cons_of_mem _ List.mem_cons_self
    rw [fails, isFailed, failed_isFailure (isFailed ▸ typed) (hasResponse isFailed)]
    constructor
    · intro agrees
      refine ⟨fun other => absurd other.symm distinct, fun _ contradicted => ?_,
        fun other => absurd listed other, fun other => absurd listed other⟩
      have found := agrees.mp rfl
      rw [contradicted, Bool.not_true, Bool.false_or, Bool.or_eq_true, Bool.or_eq_true] at found
      rcases found with (ofError | ofPayload) | ofResponse
      · exact .inl ofError
      · exact .inr (.inl ofPayload)
      · exact .inr (.inr ofResponse)
    · refine fun alike => ⟨fun _ => ?_, fun _ => rfl⟩
      cases contradicted : contradicts (responseStatus runtime payload) with
      | false => rfl
      | true =>
        rw [Bool.not_true, Bool.false_or, Bool.or_eq_true, Bool.or_eq_true, or_assoc]
        exact alike.ofFailed rfl contradicted
  have other : eventType ∉ [Utf8.lit "error", Utf8.lit "response.failed"] := by
    simp only [List.mem_cons, List.not_mem_nil, or_false, not_or]
    exact ⟨isError, isFailed⟩
  have plainly : semanticFailure eventType payload = plainSign payload := by
    rw [semanticFailure_eq, List.contains_eq_mem, decide_eq_false other, Bool.false_or]
  rw [plainly]
  cases sign : plainSign payload with
  | true =>
    rw [isFailure_of_sign typed, if_pos sign]
    constructor
    · intro agrees
      exact ⟨fun same => absurd same isError, fun same => absurd same isFailed,
        fun _ _ => by simpa using agrees.mp rfl,
        fun _ noSign => absurd (noSign.symm.trans sign) Bool.false_ne_true⟩
    · exact fun alike => ⟨fun _ => by rw [alike.kept other sign, Bool.not_false], fun _ => rfl⟩
  | false =>
    rw [isFailure_of_sign typed, if_neg (Bool.not_eq_true _ ▸ sign)]
    constructor
    · intro agrees
      exact ⟨fun same => absurd same isError, fun same => absurd same isFailed,
        fun _ isSign => absurd (sign.symm.trans isSign) Bool.false_ne_true,
        fun _ _ => Bool.eq_false_iff.mpr fun loose => Bool.false_ne_true (agrees.mpr loose)⟩
    · refine fun alike => ⟨fun impossible => absurd impossible Bool.false_ne_true, fun loose => ?_⟩
      rw [alike.plain other sign] at loose
      exact loose

end Failures

/-! ### Output -/

/-- A type that starts with `response.` and ends with a suffix. -/
def responseType (eventType : Bytes) (stop : String) : Bool :=
  startsWith eventType "response." && endsWith eventType stop

/-- An item that is a call. -/
def isCall (item : Value) : Bool :=
  (item.getStr (Utf8.lit "type")).any
    [Utf8.lit "function_call", Utf8.lit "tool_call"].contains

/-- An item with a part of text. -/
def hasTextPart (item : Value) : Bool :=
  ((item.get (Utf8.lit "content")).bind Value.asArray).any (·.any partHasText)

/-- Among the members of a value, one is a string that is not empty if one is truthy. -/
def textIfTruthy (value : Value) (fields : List String) : Prop :=
  (fields.any fun field => truthy (getOrNone value field)) = true →
    (fields.any fun field => hasText value (Utf8.lit field)) = true

/-- **Output is read alike**: where the Python plane finds a truthy member, the front finds a string. -/
structure OutputAlike (payload : Value) (eventType : Bytes) : Prop where
  delta : responseType eventType ".delta" = true → textIfTruthy payload ["delta"]
  item : eventType = Utf8.lit "response.output_item.done" →
    hasTextPart (getOrNone payload "item") = false → isCall (getOrNone payload "item") = true →
    textIfTruthy (getOrNone payload "item") ["name", "arguments", "call_id"]
  done : responseType eventType ".done" = true →
    eventType ∉ [Utf8.lit "response.content_part.done", Utf8.lit "response.output_item.done"] →
    textIfTruthy payload ["text", "refusal", "arguments"]

section Output

variable {runtime payload eventType}

theorem truthy_of_hasText {value : Value} {field : String}
    (text : hasText value (Utf8.lit field) = true) : truthy (getOrNone value field) = true := by
  unfold hasText Value.getStr at text
  unfold getOrNone
  cases found : value.get (Utf8.lit field) with
  | none => rw [found] at text; cases text
  | some member =>
    rw [found, Option.bind_some] at text
    cases member <;> first | cases text | simpa [truthy, Value.asStr] using text

theorem textIfTruthy_iff {value : Value} {fields : List String} :
    textIfTruthy value fields ↔
      (fields.any fun field => hasText value (Utf8.lit field)) =
        (fields.any fun field => truthy (getOrNone value field)) := by
  refine ⟨fun found => Bool.eq_iff_iff.mpr ⟨fun text => ?_, found⟩, fun same found => same.trans found⟩
  obtain ⟨field, isField, isText⟩ := List.any_eq_true.mp text
  exact List.any_eq_true.mpr ⟨field, isField, truthy_of_hasText isText⟩

theorem hasTextMember_eq (value : Value) (field : String) :
    hasTextMember value field = hasText value (Utf8.lit field) := by
  unfold hasTextMember hasText Value.getStr getOrNone
  cases value.get (Utf8.lit field) <;> rfl

theorem responsesPartHasText_eq (part : Value) : responsesPartHasText part = partHasText part := by
  unfold responsesPartHasText partHasText
  rw [hasTextMember_eq, hasTextMember_eq]
  cases part <;> simp [Value.isObject, Value.asObject, hasText, Value.getStr, Value.get]

/-- `str(value or "")` is empty exactly where the value is falsy. -/
theorem strOrEmpty_isEmpty (value : Value) : (strOrEmpty runtime value).isEmpty = !truthy value := by
  unfold strOrEmpty
  cases isTruthy : truthy value with
  | false => rfl
  | true =>
    rw [if_pos rfl, Bool.not_true, List.isEmpty_eq_false_iff]
    cases value with
    | string text =>
      intro empty
      rw [pyText_eq_nil.mp empty] at isTruthy
      cases isTruthy
    | null | bool value | number value | array items | object members =>
      exact runtime.shown_nonempty _ rfl

theorem truthy_pyOr (first second : Value) : truthy (pyOr first second) = (truthy first || truthy second) := by
  unfold pyOr
  cases isTruthy : truthy first with
  | true => rw [if_pos rfl, isTruthy, Bool.true_or]
  | false => rw [if_neg Bool.false_ne_true, Bool.false_or]

theorem pyText_eq_points {text : Bytes} {word : String}
    (ascii : word.toList.all (·.toNat < 128) = true) :
    pyText text = Utf8.points word ↔ text = Utf8.lit word := by
  have small : ∀ letter ∈ word.toList, letter.toNat < 128 := by simpa using ascii
  have encoded := Utf8.lit_eq_encode small
  constructor
  · intro same
    unfold pyText at same
    cases decoded : Utf8.decodeAll text with
    | some points =>
      obtain ⟨letters, isEncoded, isPoints⟩ := Utf8.decodeAll_eq_some_iff.mp decoded
      rw [decoded, Option.getD_some, isPoints, Utf8.points] at same
      have sameLetters : letters = word.toList :=
        List.map_injective_iff.mpr (fun _ _ equal => Char.toNat_inj.mp equal) same
      rw [isEncoded, sameLetters, encoded]
    | none =>
      rw [decoded, Option.getD_none] at same
      refine absurd decoded ?_
      rw [Utf8.decodeAll_ascii fun byte isByte => ?_]
      · exact Option.some_ne_none _
      · have isPoint : byte.toNat ∈ Utf8.points word := same ▸ List.mem_map_of_mem isByte
        obtain ⟨letter, isLetter, sameLetter⟩ := List.mem_map.mp isPoint
        exact sameLetter ▸ small letter isLetter
  · rintro rfl
    rw [pyText, encoded, Utf8.decodeAll_encode]
    rfl

theorem isCall_eq (item : Value) :
    (["function_call", "tool_call"].any fun itemType =>
      strOrEmpty runtime (getOrNone item "type") == Utf8.points itemType) = isCall item := by
  have words : ["function_call", "tool_call"].all fun word => word.toList.all (·.toNat < 128) := by
    simp only [List.all_cons, List.all_nil]
    rw [String.toList_ofList, String.toList_ofList]
    decide
  have notNil : ["function_call", "tool_call"].all fun word => Utf8.points word != [] := by
    simp only [List.all_cons, List.all_nil]
    rw [Utf8.points_ofList, Utf8.points_ofList]
    rfl
  unfold isCall Value.getStr getOrNone
  cases item.get (Utf8.lit "type") with
  | none =>
    refine List.any_eq_false.mpr fun word isWord => ?_
    have nonempty := List.all_eq_true.mp notNil word isWord
    rw [bne_iff_ne] at nonempty
    rw [beq_iff_eq]
    exact fun same => nonempty same.symm
  | some value =>
    rw [Option.getD_some, Option.bind_some]
    by_cases isString : ∃ text, value = .string text
    · obtain ⟨text, rfl⟩ := isString
      rw [strOrEmpty_string, Value.asStr, Option.any_some, Bool.eq_iff_iff, List.any_eq_true]
      simp only [beq_iff_eq, List.contains_eq_mem, decide_eq_true_eq]
      constructor
      · rintro ⟨word, isWord, same⟩
        rw [(pyText_eq_points (List.all_eq_true.mp words word isWord)).mp same]
        exact List.mem_map_of_mem (f := Utf8.lit) isWord
      · intro listed
        obtain ⟨word, isWord, same⟩ := List.mem_map.mp
          (show text ∈ ["function_call", "tool_call"].map Utf8.lit from listed)
        exact ⟨word, isWord, (pyText_eq_points (List.all_eq_true.mp words word isWord)).mpr same.symm⟩
    · have notString : value.asStr = none := by
        cases value <;> first | rfl | exact absurd ⟨_, rfl⟩ isString
      rw [notString, Option.any_none]
      refine List.any_eq_false.mpr fun word isWord => ?_
      rw [beq_iff_eq]
      unfold strOrEmpty
      by_cases isTruthy : truthy value = true
      · rw [if_pos isTruthy]
        have shown : strOf runtime value = runtime.shown value := by
          cases value <;> first | rfl | exact absurd ⟨_, rfl⟩ isString
        rw [shown]
        exact runtime.shown_item value notString word isWord
      · have nonempty := List.all_eq_true.mp notNil word isWord
        rw [bne_iff_ne] at nonempty
        rw [if_neg isTruthy]
        exact fun same => nonempty same.symm

theorem itemHasOutput_eq (item : Value) :
    itemHasOutput item = (hasTextPart item || (isCall item &&
      ["name", "arguments", "call_id"].any fun field => hasText item (Utf8.lit field))) := by
  unfold itemHasOutput hasTextPart isCall
  cases ((item.get (Utf8.lit "content")).bind Value.asArray).any (·.any partHasText) with
  | true => rfl
  | false =>
    rw [if_neg Bool.false_ne_true, Bool.false_or]
    cases item.getStr (Utf8.lit "type") with
    | none => rfl
    | some itemType =>
      rw [Option.all_some, Option.any_some]
      cases [Utf8.lit "function_call", Utf8.lit "tool_call"].contains itemType <;> rfl

theorem responsesItemHasSubstantiveOutput_eq (item : Value) :
    responsesItemHasSubstantiveOutput runtime item = (hasTextPart item || (isCall item &&
      ["name", "arguments", "call_id"].any fun field => truthy (getOrNone item field))) := by
  have parts : (getOrNone item "content").asArray.any (·.any responsesPartHasText) = hasTextPart item := by
    have same : responsesPartHasText = partHasText := funext responsesPartHasText_eq
    unfold hasTextPart getOrNone
    rw [same]
    cases item.get (Utf8.lit "content") <;> rfl
  unfold responsesItemHasSubstantiveOutput
  rw [parts, isCall_eq]
  cases isObject : item.isObject with
  | true => cases hasTextPart item <;> cases isCall item <;> rfl
  | false =>
    have noMember : ∀ key, item.get key = none := by
      intro key
      unfold Value.isObject at isObject
      rw [Value.get, Option.isSome_eq_false_iff.mp isObject |> Option.isNone_iff_eq_none.mp, Option.bind_none]
    have noText : hasTextPart item = false := by rw [hasTextPart, noMember]; rfl
    have noCall : isCall item = false := by rw [isCall, Value.getStr, noMember]; rfl
    rw [noText, noCall]
    rfl

theorem item_agrees_iff (item : Value) :
    itemHasOutput item = responsesItemHasSubstantiveOutput runtime item ↔
      (hasTextPart item = false → isCall item = true →
        textIfTruthy item ["name", "arguments", "call_id"]) := by
  rw [itemHasOutput_eq, responsesItemHasSubstantiveOutput_eq, textIfTruthy_iff]
  cases hasTextPart item <;> cases isCall item <;> simp

theorem not_done_of_delta (delta : responseType eventType ".delta" = true) :
    responseType eventType ".done" = false := by
  have last : ∀ {stop : Bytes} {letter : UInt8}, stop.getLast? = some letter →
      stop.isSuffixOf eventType = true → eventType.getLast? = some letter := by
    intro stop letter isLast suffix
    obtain ⟨front, rfl⟩ := List.isSuffixOf_iff_suffix.mp suffix
    rw [List.getLast?_append, isLast]
    rfl
  rw [responseType, Bool.and_eq_true] at delta
  have endsDelta : eventType.getLast? = some 97 := last (by rw [Utf8.lit_ofList]; rfl) delta.2
  rw [responseType, Bool.and_eq_false_iff]
  refine .inr (Bool.eq_false_iff.mpr fun isDone => ?_)
  have endsDone : eventType.getLast? = some 101 := last (by rw [Utf8.lit_ofList]; rfl) isDone
  rw [endsDelta] at endsDone
  exact absurd endsDone (by decide)

theorem any_lit_eq (words : List String) (text : Bytes) :
    (words.any fun word => Utf8.lit word == text) = (words.map Utf8.lit).contains text := by
  rw [Bool.eq_iff_iff, List.any_eq_true, List.contains_iff_mem, List.mem_map]
  exact exists_congr fun word => and_congr_right fun _ => beq_iff_eq

/-- The types of a part. -/
def partTypes : List Bytes :=
  [Utf8.lit "response.content_part.added", Utf8.lit "response.content_part.done"]

theorem hasRealOutput_eq :
    hasRealOutput eventType payload =
      if responseType eventType ".delta" then hasText payload (Utf8.lit "delta")
      else if partTypes.contains eventType then partHasText (getOrNone payload "part")
      else if eventType = Utf8.lit "response.output_item.done" then
        itemHasOutput (getOrNone payload "item")
      else if responseType eventType ".done" then
        ["text", "refusal", "arguments"].any fun field => hasText payload (Utf8.lit field)
      else false := by
  have ofPart : (payload.get (Utf8.lit "part")).any partHasText =
      partHasText (getOrNone payload "part") := by
    unfold getOrNone
    cases payload.get (Utf8.lit "part") <;> rfl
  have ofItem : (payload.get (Utf8.lit "item")).any itemHasOutput =
      itemHasOutput (getOrNone payload "item") := by
    unfold getOrNone
    cases payload.get (Utf8.lit "item") <;> rfl
  rw [← ofPart, ← ofItem]
  rfl

theorem responsesStreamEventHasRealOutput_eq (isObject : payload.isObject = true) :
    responsesStreamEventHasRealOutput runtime eventType payload =
      if responseType eventType ".delta" then truthy (getOrNone payload "delta")
      else if partTypes.contains eventType then partHasText (getOrNone payload "part")
      else if eventType = Utf8.lit "response.output_item.done" then
        responsesItemHasSubstantiveOutput runtime (getOrNone payload "item")
      else if responseType eventType ".done" then
        ["text", "refusal", "arguments"].any fun field => truthy (getOrNone payload field)
      else false := by
  unfold responsesStreamEventHasRealOutput
  rw [isObject, any_lit_eq, responsesPartHasText_eq, strOrEmpty_isEmpty, strOrEmpty_isEmpty,
    truthy_pyOr, truthy_pyOr, Bool.not_not, Bool.not_not]
  simp only [Bool.not_true, Bool.false_eq_true, if_false, List.any_cons, List.any_nil, Bool.or_false,
    Bool.or_assoc]
  rfl

/-- **When both planes see output in an event.** -/
theorem output_agrees_iff (isObject : payload.isObject = true) :
    hasRealOutput eventType payload = responsesStreamEventHasRealOutput runtime eventType payload ↔
      OutputAlike payload eventType := by
  rw [hasRealOutput_eq, responsesStreamEventHasRealOutput_eq isObject]
  have itemType : responseType (Utf8.lit "response.output_item.done") ".delta" = false := by
    rw [responseType, startsWith, endsWith]
    repeat rw [Utf8.lit_ofList]
    decide
  have partType : partTypes.contains (Utf8.lit "response.output_item.done") = false := by
    rw [partTypes]
    repeat rw [Utf8.lit_ofList]
    decide
  have addedType : responseType (Utf8.lit "response.content_part.added") ".done" = false := by
    rw [responseType, startsWith, endsWith]
    repeat rw [Utf8.lit_ofList]
    decide
  cases delta : responseType eventType ".delta" with
  | true =>
    rw [if_pos rfl, if_pos rfl]
    have notItem : eventType ≠ Utf8.lit "response.output_item.done" := by
      rintro rfl
      rw [itemType] at delta
      cases delta
    have alone : textIfTruthy payload ["delta"] ↔
        hasText payload (Utf8.lit "delta") = truthy (getOrNone payload "delta") := by
      rw [textIfTruthy_iff]
      simp only [List.any_cons, List.any_nil, Bool.or_false]
    rw [← alone]
    refine ⟨fun alike => ⟨fun _ => alike, fun isItem => absurd isItem notItem, fun isDone => ?_⟩,
      fun alike => alike.delta delta⟩
    rw [not_done_of_delta delta] at isDone
    cases isDone
  | false =>
    rw [if_neg Bool.false_ne_true, if_neg Bool.false_ne_true]
    cases part : partTypes.contains eventType with
    | true =>
      rw [if_pos rfl, if_pos rfl]
      refine iff_of_true rfl ⟨fun isDelta => ?_, fun isItem => ?_, fun isDone notPart => ?_⟩
      · rw [delta] at isDelta
        cases isDelta
      · rw [isItem, partType] at part
        cases part
      · rw [List.contains_iff_mem, partTypes, List.mem_cons, List.mem_singleton] at part
        rcases part with rfl | rfl
        · rw [addedType] at isDone
          cases isDone
        · exact absurd List.mem_cons_self notPart
    | false =>
      rw [if_neg Bool.false_ne_true, if_neg Bool.false_ne_true]
      by_cases isItem : eventType = Utf8.lit "response.output_item.done"
      · rw [if_pos isItem, if_pos isItem, item_agrees_iff]
        refine ⟨fun alike => ⟨fun isDelta => ?_, fun _ => alike, fun _ notItem => ?_⟩,
          fun alike => alike.item isItem⟩
        · rw [delta] at isDelta
          cases isDelta
        · refine absurd ?_ notItem
          rw [isItem]
          exact List.mem_cons_of_mem _ List.mem_cons_self
      · rw [if_neg isItem, if_neg isItem]
        cases isDone : responseType eventType ".done" with
        | true =>
          have notListed : eventType ∉
              [Utf8.lit "response.content_part.done", Utf8.lit "response.output_item.done"] := by
            rw [List.mem_cons, List.mem_singleton]
            rintro (rfl | same)
            · rw [List.contains_eq_mem, partTypes] at part
              simp at part
            · exact isItem same
          rw [if_pos rfl, if_pos rfl, ← textIfTruthy_iff]
          refine ⟨fun alike => ⟨fun isDelta => ?_, fun same => absurd same isItem, fun _ _ => alike⟩,
            fun alike => alike.done isDone notListed⟩
          rw [delta] at isDelta
          cases isDelta
        | false =>
          rw [if_neg Bool.false_ne_true, if_neg Bool.false_ne_true]
          refine iff_of_true rfl ⟨fun isDelta => ?_, fun same => absurd same isItem, fun done => ?_⟩
          · rw [delta] at isDelta
            cases isDelta
          · rw [isDone] at done
            cases done

end Output

/-! ### Both together -/

/-- The commit policy as the Python plane spells it. -/
def policyName : CommitPolicy → String
  | .completedUsage => "completed_usage"
  | .realOutput => "real_output"

section Agreement

variable {runtime payload eventType}

/-- The types that no policy looks into have no output on either plane. -/
theorem outputAlike_of_listed
    (listed : eventType ∈ quietEventTypes ++
      [Utf8.lit "response.completed", Utf8.lit "response.incomplete"]) :
    OutputAlike payload eventType := by
  have each : (quietEventTypes ++ [Utf8.lit "response.completed", Utf8.lit "response.incomplete"]).all
      fun word => !responseType word ".delta" && !responseType word ".done" &&
        word != Utf8.lit "response.output_item.done" := by
    simp only [quietEventTypes, responseType, startsWith, endsWith]
    repeat rw [Utf8.lit_ofList]
    decide
  have facts := List.all_eq_true.mp each eventType listed
  rw [Bool.and_eq_true, Bool.and_eq_true, bne_iff_ne, Bool.not_eq_true', Bool.not_eq_true'] at facts
  obtain ⟨⟨notDelta, notDone⟩, notItem⟩ := facts
  refine ⟨fun isDelta => ?_, fun isItem => absurd isItem notItem, fun isDone => ?_⟩
  · rw [notDelta] at isDelta
    cases isDelta
  · rw [notDone] at isDone
    cases isDone

/-- **When both planes commit alike** on an event that is no failure of the front. -/
theorem commits_agree_iff (isObject : payload.isObject = true)
    (noFailure : semanticFailure eventType payload = false) :
    (∀ policy wire, (processedEvent policy wire payload eventType).commits =
        responsesStreamEventCommits runtime eventType payload (policyName policy) true) ↔
      OutputAlike payload eventType := by
  have quiet : (preflightEvents.any fun word => Utf8.lit word == eventType) =
      quietEventTypes.contains eventType := any_lit_eq _ _
  have ends : (["response.completed", "response.incomplete"].any fun word => Utf8.lit word == eventType) =
      (terminalOf eventType payload).isSome := by
    rw [terminalOf, noFailure, if_neg Bool.false_ne_true, any_lit_eq, List.map_cons, List.map_cons,
      List.map_nil]
    by_cases completed : eventType = Utf8.lit "response.completed"
    · rw [if_pos completed, completed]
      simp
    · rw [if_neg completed]
      by_cases incomplete : eventType = Utf8.lit "response.incomplete"
      · rw [if_pos incomplete, incomplete]
        simp
      · rw [if_neg incomplete, List.contains_eq_mem]
        simp [completed, incomplete]
  have terminalTypes : (terminalOf eventType payload).isSome =
      [Utf8.lit "response.completed", Utf8.lit "response.incomplete"].contains eventType := by
    rw [← ends]
    exact any_lit_eq _ _
  cases isQuiet : quietEventTypes.contains eventType with
  | true =>
    have each : quietEventTypes.all fun word =>
        !([Utf8.lit "response.completed", Utf8.lit "response.incomplete"].contains word) := by
      rw [quietEventTypes]
      repeat rw [Utf8.lit_ofList]
      decide
    have notTerminal : (terminalOf eventType payload).isSome = false := by
      rw [terminalTypes]
      simpa only [Bool.not_eq_true'] using
        List.all_eq_true.mp each eventType (List.contains_iff_mem.mp isQuiet)
    refine iff_of_true (fun policy wire => ?_)
      (outputAlike_of_listed (List.mem_append_left _ (List.contains_iff_mem.mp isQuiet)))
    unfold processedEvent responsesStreamEventCommits
    rw [quiet, isQuiet, notTerminal]
    rfl
  | false =>
    cases isTerminal : (terminalOf eventType payload).isSome with
    | true =>
      rw [terminalTypes, List.contains_iff_mem] at isTerminal
      refine iff_of_true (fun policy wire => ?_)
        (outputAlike_of_listed (List.mem_append_right _ isTerminal))
      rw [← List.contains_iff_mem, ← terminalTypes] at isTerminal
      unfold processedEvent responsesStreamEventCommits
      rw [quiet, isQuiet, ends, isTerminal]
      rfl
    | false =>
      rw [← @output_agrees_iff runtime payload eventType isObject]
      unfold processedEvent responsesStreamEventCommits
      rw [quiet, isQuiet, ends, isTerminal]
      constructor
      · intro commits
        exact commits .realOutput []
      · intro same policy wire
        cases policy with
        | completedUsage => rfl
        | realOutput => exact same

/-- **The two planes on an event.** For every event that the terminal validators accept: both take it for
a failure or neither does, and if the front does not, both end the retryable phase at it or neither
does, under each policy, exactly if signs of failures and output are read alike. -/
theorem classified_alike_iff (typed : payload.getStr (Utf8.lit "type") = some eventType)
    (accepted : validateTerminal eventType payload = .ok ()) :
    ((semanticFailure eventType payload = true ↔
          (responsesFailureHttpException runtime payload eventType).isSome = true) ∧
        (semanticFailure eventType payload = false →
          ∀ policy wire, (processedEvent policy wire payload eventType).commits =
            responsesStreamEventCommits runtime eventType payload (policyName policy) true)) ↔
      FailureAlike runtime payload eventType ∧
        (eventType ∉ [Utf8.lit "error", Utf8.lit "response.failed"] → plainSign payload = false →
          OutputAlike payload eventType) := by
  have isObject : payload.isObject = true := by
    unfold Value.getStr Value.get at typed
    cases found : payload.asObject with
    | none => rw [found] at typed; cases typed
    | some object => rw [Value.isObject, found]; rfl
  have noFailure : semanticFailure eventType payload = false ↔
      eventType ∉ [Utf8.lit "error", Utf8.lit "response.failed"] ∧ plainSign payload = false := by
    rw [semanticFailure_eq, Bool.or_eq_false_iff, List.contains_eq_mem, decide_eq_false_iff_not]
  rw [failure_agrees_iff typed accepted]
  refine and_congr_right fun _ => ?_
  constructor
  · exact fun commits other noSign =>
      (commits_agree_iff isObject (noFailure.mpr ⟨other, noSign⟩)).mp
        (commits (noFailure.mpr ⟨other, noSign⟩))
  · intro alike fails
    obtain ⟨other, noSign⟩ := noFailure.mp fails
    exact (commits_agree_iff isObject fails).mpr (alike other noSign)

end Agreement

/-- A delta with text. -/
def textDelta : Value :=
  .object [(Utf8.lit "delta", .string (Utf8.lit "a")),
    (Utf8.lit "type", .string (Utf8.lit "response.output_text.delta"))]

/-- A delta with text is accepted, and compared. -/
theorem classified_alike_text_delta :
    ((semanticFailure (Utf8.lit "response.output_text.delta") textDelta = true ↔
          (responsesFailureHttpException StreamRuntime.plain textDelta
            (Utf8.lit "response.output_text.delta")).isSome = true) ∧
        (semanticFailure (Utf8.lit "response.output_text.delta") textDelta = false →
          ∀ policy wire, (processedEvent policy wire textDelta
              (Utf8.lit "response.output_text.delta")).commits =
            responsesStreamEventCommits StreamRuntime.plain (Utf8.lit "response.output_text.delta")
              textDelta (policyName policy) true)) ↔
      FailureAlike StreamRuntime.plain textDelta (Utf8.lit "response.output_text.delta") ∧
        (Utf8.lit "response.output_text.delta" ∉ [Utf8.lit "error", Utf8.lit "response.failed"] →
          plainSign textDelta = false →
          OutputAlike textDelta (Utf8.lit "response.output_text.delta")) :=
  classified_alike_iff (by decide) (by rfl)

/-- A completed response whose status says `failed` behind a space. -/
def spacedFailure : Value :=
  .object [(Utf8.lit "response", .object [(Utf8.lit "status", .string (Utf8.lit " failed"))]),
    (Utf8.lit "type", .string (Utf8.lit "response.completed"))]

/-- **A status with white space is a failure in Python alone.** -/
theorem spaced_status_overlooked :
    validateTerminal (Utf8.lit "response.completed") spacedFailure = .ok () ∧
      semanticFailure (Utf8.lit "response.completed") spacedFailure = false ∧
      (responsesFailureHttpException StreamRuntime.plain spacedFailure
        (Utf8.lit "response.completed")).isSome = true := by
  refine ⟨?_, ?_, ?_⟩
  · rfl
  · decide
  · decide

end UniApi.CrossPlane
