/-
**`resolve_timeout_policy`: timeouts from the policies of the configuration, in Python.**

A policy has default timeouts and rules. It is normalised when the configuration is loaded. The global
default is updated by the default of the provider, then by the best global rule, then by the best rule
of the provider.
-/

import UniApi.Upstream.StreamEvents

namespace UniApi.Config

open UniApi.Lib UniApi.Front UniApi.Upstream

/-- What a request is: the texts of its context, and whether it streams. -/
structure Context where
  provider : Bytes
  engine : Bytes
  requestModel : Bytes
  upstreamModel : Bytes
  role : Bytes
  stream : Bool

/-! ### Policies -/

/-- Timeouts by their keys, the last update in front. -/
abbrev Timeouts := List (String × Nat)

/-- `merged.update(values)`. -/
def update (merged values : Timeouts) : Timeouts := values ++ merged

/-- A rule of a policy. -/
structure Rule where
  condition : JsonMap
  timeout : Timeouts

/-- A normalised policy. -/
structure Policy where
  default : Timeouts
  rules : List Rule

section Normalize

variable (runtime : StreamRuntime)

/-- The keys of timeouts. -/
def timeoutKeys : List String := ["connect", "write", "pool", "first_byte", "idle", "total"]

/-- `_normalize_timeout_values`. -/
def normalizeTimeoutValues : Value → Timeouts
  | .number number =>
    ((intOf runtime (.number number)).map fun value => ("first_byte", value.toNat)).toList
  | .object raw => timeoutKeys.filterMap fun key =>
    match (JsonMap.get raw (Utf8.lit key)).getD .null with
    | .null => none
    | value => (intOf runtime value).map fun value => (key, value.toNat)
  | _ => []

/-- `policy.get("rules") or []` as it is iterated; `none` where it cannot be. -/
def rulesOf (rules : Value) : Option (List Value) :=
  if !truthy rules then some []
  else
    match rules with
    | .array items => some items
    | .string _ => some []
    | .object _ => some []
    | _ => none

/-- `item.get("match") or {}`. -/
def conditionOf (rule : JsonMap) : Value :=
  let condition := (rule.get (Utf8.lit "match")).getD .null
  if truthy condition then condition else .object []

/-- One item of the rules. -/
def normalizeRule : Value → Option Rule
  | .object rule =>
    let timeout := normalizeTimeoutValues runtime ((JsonMap.get rule (Utf8.lit "timeout")).getD .null)
    match conditionOf rule with
    | .object condition => if timeout.isEmpty then none else some ⟨condition, timeout⟩
    | _ => none
  | _ => none

/-- `_normalize_timeout_policy`; `none` where the rules cannot be iterated. -/
def normalizeTimeoutPolicy : Option Value → Option Policy
  | some (.object policy) =>
    (rulesOf ((JsonMap.get policy (Utf8.lit "rules")).getD .null)).map fun items =>
      { default := normalizeTimeoutValues runtime
          ((JsonMap.get policy (Utf8.lit "default")).getD .null)
        rules := items.filterMap (normalizeRule runtime) }
  | _ => some ⟨[], []⟩

end Normalize

/-! ### Rules -/

section Rules

variable (runtime : StreamRuntime) (context : Context)

/-- The context of `resolve_timeout_policy`. -/
def contextValue (key : Bytes) : Value :=
  if key = Utf8.lit "provider" then .string context.provider
  else if key = Utf8.lit "endpoint" then .string (Utf8.lit "/v1/responses")
  else if key = Utf8.lit "method" then .string (Utf8.lit "POST")
  else if key = Utf8.lit "stream" then .bool context.stream
  else if key = Utf8.lit "engine" then .string context.engine
  else if key = Utf8.lit "model" then .string context.requestModel
  else if key = Utf8.lit "request_model" then .string context.requestModel
  else if key = Utf8.lit "upstream_model" then .string context.upstreamModel
  else if key = Utf8.lit "role" then .string context.role
  else .null

/-- `aliases.get(key, (key,))`. -/
def aliases (key : Bytes) : List Bytes :=
  if key = Utf8.lit "model" then
    [Utf8.lit "model", Utf8.lit "request_model", Utf8.lit "upstream_model"]
  else [key]

/-- `_timeout_policy_value_matches` of what is no list. -/
def scalarMatches (expected actual : Value) : Bool :=
  match expected with
  | .bool expected => truthy actual == expected
  | expected =>
    let expectedStr := PyText.strip (strOf runtime expected)
    let actualStr := PyText.strip (strOrEmpty runtime actual)
    if expectedStr.isEmpty then false
    else if expectedStr = [42] then true
    else if expectedStr.getLast? = some 42 then
      (runtime.lower expectedStr.dropLast).isPrefixOf (runtime.lower actualStr)
    else runtime.lower expectedStr == runtime.lower actualStr

mutual

/-- `_timeout_policy_value_matches`. -/
def valueMatches (actual : Value) : Value → Bool
  | .array items => anyMatches actual items
  | .null => scalarMatches runtime .null actual
  | .bool expected => scalarMatches runtime (.bool expected) actual
  | .number expected => scalarMatches runtime (.number expected) actual
  | .string expected => scalarMatches runtime (.string expected) actual
  | .object expected => scalarMatches runtime (.object expected) actual

/-- `any(..)` over the members of a list. -/
def anyMatches (actual : Value) : List Value → Bool
  | [] => false
  | item :: rest => valueMatches actual item || anyMatches actual rest

end

/-- One entry of `_timeout_policy_rule_matches`. -/
def entryMatches (key : Bytes) (expected : Value) : Bool :=
  expected.isNull || (aliases key).any fun contextKey =>
    valueMatches runtime (contextValue context contextKey) expected

/-- `_timeout_policy_rule_matches`. -/
def ruleMatches (condition : JsonMap) : Bool :=
  condition.all fun entry => entryMatches runtime context entry.1 entry.2

/-- The keys of a condition that are not null. -/
def score (condition : JsonMap) : Nat := condition.countP (!·.2.isNull)

/-- The step of `_best_timeout_policy_rule`. -/
def bestStep (best : Option (Nat × Timeouts)) (rule : Rule) : Option (Nat × Timeouts) :=
  if !ruleMatches runtime context rule.condition then best
  else if best.all (·.1 < score rule.condition) then some (score rule.condition, rule.timeout)
  else best

/-- `_best_timeout_policy_rule`. -/
def bestTimeoutPolicyRule (rules : List Rule) : Option Timeouts :=
  (rules.foldl (bestStep runtime context) none).map Prod.snd

/-- `resolve_timeout_policy`, for the normalised policies of the configuration and the provider. -/
def resolveTimeoutPolicy (globalPolicy providerPolicy : Policy) : Timeouts :=
  let defaults := update (update [] globalPolicy.default) providerPolicy.default
  let withGlobal := update defaults ((bestTimeoutPolicyRule runtime context globalPolicy.rules).getD [])
  update withGlobal ((bestTimeoutPolicyRule runtime context providerPolicy.rules).getD [])

/-- The timeouts for the policies as they are configured; `none` where a policy cannot be loaded. -/
def resolveTimeouts (globalPolicy providerPolicy : Option Value) : Option Timeouts := do
  let globalPolicy ← normalizeTimeoutPolicy runtime globalPolicy
  let providerPolicy ← normalizeTimeoutPolicy runtime providerPolicy
  return resolveTimeoutPolicy runtime context globalPolicy providerPolicy

end Rules

end UniApi.Config
