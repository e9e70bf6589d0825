/-
**`responses_semantic_error`: the status of a failure in a stream.**

The status is the first HTTP error status in five places, else it comes from a table under the code of
the error, from one under its type, or from the texts in its message.

* `semanticStatus_eq`: the status is the first that one of the four steps gives, else 500.
-/

import Mathlib.Data.List.ReduceOption
import UniApi.Front.ProviderStatus

namespace UniApi.Front

open UniApi.Lib

/-! ### What is read of an error -/

/-- `payload.pointer("/response/<key>")`. -/
def inResponse (payload : Value) (key : Bytes) : Option Value :=
  (payload.get (Utf8.lit "response")).bind (·.get key)

/-- The error of a failure. -/
def semanticErrorObject (payload : Value) (eventType : Bytes) : Option Value :=
  (if eqIgnoreAsciiCase eventType (Utf8.lit "response.failed") then
      inResponse payload (Utf8.lit "error")
    else payload.get (Utf8.lit "error")).or (payload.get (Utf8.lit "error"))

/-- The detail where the error has no text. -/
def defaultDetail : Bytes := Utf8.lit "Responses upstream returned a failure terminal"

/-- The detail of a failure: the first 4096 characters of the message. -/
def semanticDetail (error : Option Value) : List CodePoint :=
  let message := ((error.bind (·.get (Utf8.lit "message"))).bind Value.asStr).or
    (error.bind Value.asStr)
  (((Utf8.decodeAll ((message.filter fun text => !(trim text).isEmpty).getD defaultDetail)).getD
    []).take 4096)

/-- `str::parse::<u64>`. -/
def parseU64 (text : Bytes) : Option Nat :=
  let digits := if text.head? = some 43 then text.tail else text
  if digits.isEmpty || !digits.all fun byte => 48 ≤ byte && byte ≤ 57 then none
  else
    let value := digits.foldl (fun value byte => 10 * value + (byte.toNat - 48)) 0
    if value < 2 ^ 64 then some value else none

/-- An HTTP error status in one place. -/
def candidateStatus (candidate : Value) : Option Nat :=
  (candidate.asU64.or (candidate.asStr.bind parseU64)).filter fun status =>
    400 ≤ status && status ≤ 599

/-- The five places of a status. -/
def statusCandidates (error : Option Value) (payload : Value) : List (Option Value) :=
  [error.bind (·.get (Utf8.lit "status_code")), error.bind (·.get (Utf8.lit "status")),
    payload.get (Utf8.lit "status_code"), payload.get (Utf8.lit "status"),
    inResponse payload (Utf8.lit "status_code")]

/-- The statuses of the codes. -/
def statusByCode : List (List String × Nat) :=
  [(["account_deactivated", "account_disabled", "account_suspended", "deactivated_workspace",
      "permission_denied", "user_deactivated", "user_suspended"], 403),
    (["authentication_error", "incorrect_api_key_provided", "invalid_api_key"], 401),
    (["billing_hard_limit_reached", "insufficient_quota", "rate_limit_exceeded"], 429),
    (["context_length_exceeded", "invalid_request_error", "invalid_type", "model_not_priced",
      "model_price_not_configured", "model_pricing_not_configured", "model_price_unconfigured",
      "model_pricing_missing", "unsupported_parameter"], 400),
    (["model_not_found", "not_found_error"], 404)]

/-- The statuses of the types. -/
def statusByType : List (List String × Nat) :=
  [(["authentication_error"], 401), (["invalid_request_error"], 400), (["not_found_error"], 404),
    (["permission_error"], 403), (["rate_limit_error", "tokens"], 429)]

/-- The texts of a message, in the order in which they are looked for. -/
def statusByMessage : List (List String × Nat) :=
  [(["rate limit", "too many requests"], 429),
    (["context window", "context length", "maximum context", "too many tokens"], 400),
    (["request entity too large", "payload too large"], 413), (["invalid", "unsupported"], 400),
    (["not found"], 404), (["permission", "forbidden"], 403),
    (["auth", "api key", "unauthorized"], 401)]

/-- The first status of a table one of whose words passes a test. -/
def firstStatus (table : List (List String × Nat)) (test : String → Bool) : Option Nat :=
  (table.find? fun entry => entry.1.any test).map Prod.snd

/-- A member of an error as an identifier: trimmed, in ASCII lower case. -/
def identifier (error : Option Value) (field : Bytes) : List CodePoint :=
  (trim (((error.bind (·.get field)).bind Value.asStr).getD [])).map PyText.lowerAscii

/-- `responses_semantic_error`. -/
def responsesSemanticError (payload : Value) (eventType : Bytes) : Nat × List CodePoint :=
  let error := semanticErrorObject payload eventType
  let detail := semanticDetail error
  match (statusCandidates error payload).reduceOption.findSome? candidateStatus with
  | some status => (status, detail)
  | none =>
    let code := identifier error (Utf8.lit "code")
    match firstStatus statusByCode (Utf8.points · == code) with
    | some status => (status, detail)
    | none =>
      let errorType := identifier error (Utf8.lit "type")
      match firstStatus statusByType (Utf8.points · == errorType) with
      | some status => (status, detail)
      | none =>
        let message := detail.map PyText.lowerAscii
        ((firstStatus statusByMessage fun marker => isSubstring (Utf8.points marker) message).getD 500,
          detail)

/-- **The status of a failure** is the first that one of the steps gives. -/
theorem semanticStatus_eq (payload : Value) (eventType : Bytes) :
    (responsesSemanticError payload eventType).1 =
      (((((statusCandidates (semanticErrorObject payload eventType) payload).reduceOption.findSome?
              candidateStatus).or
            (firstStatus statusByCode
              (Utf8.points · == identifier (semanticErrorObject payload eventType) (Utf8.lit "code")))).or
          (firstStatus statusByType
            (Utf8.points · == identifier (semanticErrorObject payload eventType) (Utf8.lit "type")))).or
        (firstStatus statusByMessage fun marker => isSubstring (Utf8.points marker)
          ((semanticDetail (semanticErrorObject payload eventType)).map PyText.lowerAscii))).getD 500 := by
  unfold responsesSemanticError
  dsimp only
  cases (statusCandidates (semanticErrorObject payload eventType) payload).reduceOption.findSome?
      candidateStatus with
  | some status => rfl
  | none =>
    cases firstStatus statusByCode
        (Utf8.points · == identifier (semanticErrorObject payload eventType) (Utf8.lit "code")) with
    | some status => rfl
    | none =>
      cases firstStatus statusByType
          (Utf8.points · == identifier (semanticErrorObject payload eventType) (Utf8.lit "type")) with
      | some status => rfl
      | none => rfl

end UniApi.Front
