/-
**`remap_provider_status` and `record_failure`: what a failed attempt means to the front.**

The status of a failed attempt comes from its own status and from texts in its detail; the retry
decision comes from that status.
-/

import UniApi.Lib.PyText
import UniApi.Front.Json

namespace UniApi.Front

open UniApi.Lib

/-! ### The status of a failure -/

theorem toNat_toAsciiLowercase (byte : UInt8) :
    (toAsciiLowercase byte).toNat = PyText.lowerAscii byte.toNat := by
  unfold toAsciiLowercase PyText.lowerAscii
  have bound := byte.toNat_lt
  by_cases upper : 65 ≤ byte.toNat ∧ byte.toNat ≤ 90
  · have isUpper : (decide (65 ≤ byte) && decide (byte ≤ 90)) = true := by
      simpa [UInt8.le_iff_toNat_le] using upper
    rw [if_pos isUpper, if_pos upper, UInt8.toNat_add]
    show (byte.toNat + 32) % 256 = byte.toNat + 32
    omega
  · have notUpper : ¬(decide (65 ≤ byte) && decide (byte ≤ 90)) = true := by
      simpa [UInt8.le_iff_toNat_le] using upper
    rw [if_neg notUpper, if_neg upper]

/-- `str::to_ascii_lowercase`. -/
def asciiLowered (text : Bytes) : Bytes := text.map toAsciiLowercase

/-- One of the texts is in the text. -/
def mentions (markers : List String) (text : Bytes) : Bool :=
  markers.any fun marker => containsBytes text (Utf8.lit marker)

/-- The texts of a request that is too long, in lower case. -/
def lengthMarkers : List String :=
  ["string_above_max_length", "must be less than max_seq_len",
    "please reduce the length of the messages or completion",
    "request contains text fields that are too large.",
    "please reduce the length of either one, or use the",
    "exceeds the maximum number of tokens allowed"]

/-- The texts of a refused key. -/
def keyMarkers : List String :=
  ["'reason': 'API_KEY_INVALID'", "API key not valid", "API key expired"]

/-- The text of a refused location. -/
def locationMarkers : List String := ["User location is not supported for the API use."]

/-- The texts of a gateway that answered 400. -/
def gatewayMarkers : List String :=
  ["<center><h1>400 Bad Request</h1></center>",
    "Provider API error: bad response status code 400"]

/-- The text of a content filter. -/
def filterMarkers : List String :=
  ["The response was filtered due to the prompt triggering Azure OpenAI's content management policy."]

/-- The title of a page that refuses the size of a request. -/
def entityMarkers : List String := ["<head><title>413 Request Entity Too Large</title></head>"]

/-- The codes of a model without a price. -/
def pricingCodes : List String :=
  ["model_not_priced", "model_price_not_configured", "model_pricing_not_configured",
    "model_price_unconfigured", "model_pricing_missing"]

/-- The texts of a model without a price. -/
def pricingMarkers : List String :=
  ["has not been priced by the administrator", "has not been priced by administrator",
    "price has not been configured by the administrator",
    "pricing has not been configured by the administrator"]

/-- `is_model_pricing_unconfigured`. -/
def isModelPricingUnconfigured (detail : Bytes) : Bool :=
  let lower := asciiLowered detail
  mentions (pricingCodes ++ pricingMarkers) lower ||
    isSubstring (Utf8.points "价格尚未由管理员配置")
      (((Utf8.decodeAll lower).getD []).filter (!isWhitespace ·))

/-- `remap_provider_status`. -/
def remapProviderStatus (status : Nat) (detail : Bytes) : Nat :=
  if mentions lengthMarkers (asciiLowered detail) then 413
  else if mentions keyMarkers detail then 401
  else if mentions locationMarkers detail then 403
  else if mentions gatewayMarkers detail || status == 400 && isModelPricingUnconfigured detail then 502
  else if mentions filterMarkers detail then 403
  else if mentions entityMarkers detail then 429
  else status

/-! ### The retry decision -/

/-- The texts of an item that was not persisted. -/
def missingItemMarkers : List String :=
  ["invalid_request_error", "item with id", "not found", "items are not persisted when", "store"]

/-- `is_missing_persisted_item_error`. -/
def isMissingPersistedItemError (detail : Bytes) : Bool :=
  missingItemMarkers.all fun marker => mentions [marker] (asciiLowered detail)

/-- `Value::as_u64`. -/
def Value.asU64 : Value → Option Nat
  | .number (.posInt value) => if value < 2 ^ 64 then some value else none
  | _ => none

/-- What the decision asks of a route: `auto_retry()`, `has_attempts_remaining()` and the engine of the
last provider. -/
structure NativeRoute where
  autoRetry : Bool
  hasAttemptsRemaining : Bool
  lastEngine : Option Bytes

/-- The status of an outcome. -/
def outcomeStatus (outcome : Value) : Nat :=
  min (((outcome.get (Utf8.lit "status_code")).bind Value.asU64).getD 502) (2 ^ 16 - 1)

/-- The detail of an outcome. -/
def outcomeDetail (outcome : Value) : Bytes :=
  (((outcome.get (Utf8.lit "detail")).or (outcome.get (Utf8.lit "body"))).bind Value.asStr).getD
    (Utf8.lit "Responses upstream attempt failed")

/-- `record_failure`: whether another attempt is wanted. -/
def NativeRoute.recordFailure (route : NativeRoute) (outcome : Value) : Bool :=
  let detail := outcomeDetail outcome
  let status := remapProviderStatus (outcomeStatus outcome) detail
  let codexModelUnsupported := status == 400 &&
    route.lastEngine.any (eqIgnoreAsciiCase · (Utf8.lit "codex")) &&
    mentions ["model is not supported when using codex with a chatgpt account"] (asciiLowered detail)
  let missingPersistedItem := status == 404 && isMissingPersistedItemError detail
  let requestScoped := [400, 413].contains status || missingPersistedItem
  route.autoRetry && (!requestScoped || codexModelUnsupported) && route.hasAttemptsRemaining

end UniApi.Front
