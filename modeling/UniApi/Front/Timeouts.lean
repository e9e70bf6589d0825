/-
**`resolve_timeouts`: timeouts from the policies, in the front.**

The global policy is merged as a whole, its default and its best rule, and then the policy of the
provider.

* `get_extend`: a merged map has the entries of the second map, and else those of the first.
-/

import UniApi.Config.TimeoutPolicy
import UniApi.Front.JsonPaths

namespace UniApi.Front

open UniApi.Lib UniApi.Config

/-- `Map::extend`. The keys of a map are distinct, so the order of the insertions does not matter. -/
def JsonMap.extend (target other : JsonMap) : JsonMap :=
  other.foldr (fun entry map => map.insert entry.1 entry.2) target

theorem JsonMap.get_extend (target other : JsonMap) (key : Bytes) :
    (target.extend other).get key = (other.get key).or (target.get key) := by
  induction other with
  | nil => rfl
  | cons entry rest ih =>
    obtain ⟨name, value⟩ := entry
    have inserted : JsonMap.extend target ((name, value) :: rest) =
        (target.extend rest).insert name value := rfl
    have looked : JsonMap.get ((name, value) :: rest) key =
        if key == name then some value else JsonMap.get rest key := by
      rw [JsonMap.get, List.lookup_cons]
      cases key == name <;> rfl
    rw [inserted, looked]
    by_cases same : key = name
    · subst same
      rw [JsonMap.get_insert_self, if_pos (beq_self_eq_true key), Option.some_or]
    · rw [JsonMap.get_insert_of_ne _ same, if_neg (by simpa using same), ih]

/-! ### Rules -/

/-- The texts of the context. -/
def contextText (context : Context) (key : Bytes) : Bytes :=
  if key = Utf8.lit "provider" then context.provider
  else if key = Utf8.lit "endpoint" then Utf8.lit "/v1/responses"
  else if key = Utf8.lit "method" then Utf8.lit "POST"
  else if key = Utf8.lit "engine" then context.engine
  else if key = Utf8.lit "model" then context.requestModel
  else if key = Utf8.lit "request_model" then context.requestModel
  else if key = Utf8.lit "upstream_model" then context.upstreamModel
  else if key = Utf8.lit "role" then context.role
  else []

/-- `timeout_value_matches` of a string. -/
def textMatches (expected actual : Bytes) : Bool :=
  expected == [42] || eqIgnoreAsciiCase expected actual ||
    (expected.getLast? == some 42 &&
      (expected.dropLast.map toAsciiLowercase).isPrefixOf (actual.map toAsciiLowercase))

mutual

/-- `timeout_value_matches`. -/
def timeoutValueMatches (actual : Bytes) : Value → Bool
  | .array values => timeoutAnyMatches actual values
  | .string expected => textMatches expected actual
  | .null => false
  | .bool _ => false
  | .number _ => false
  | .object _ => false

/-- `any(..)` over the values of an array. -/
def timeoutAnyMatches (actual : Bytes) : List Value → Bool
  | [] => false
  | value :: rest => timeoutValueMatches actual value || timeoutAnyMatches actual rest

end

section Rules

variable (context : Context)

/-- One entry of `timeout_rule_matches`. -/
def timeoutEntryMatches (key : Bytes) (expected : Value) : Bool :=
  if key = Utf8.lit "stream" then
    match expected with
    | .bool value => value == context.stream
    | _ => false
  else timeoutValueMatches (contextText context key) expected

/-- `timeout_rule_matches`. -/
def timeoutRuleMatches (condition : JsonMap) : Bool :=
  condition.all fun entry => timeoutEntryMatches context entry.1 entry.2

/-- The step over the rules of a policy. -/
def bestTimeoutStep (best : Option (Nat × JsonMap)) (rule : JsonMap) : Option (Nat × JsonMap) :=
  match (rule.get (Utf8.lit "match")).bind Value.asObject with
  | none => best
  | some condition =>
    if timeoutRuleMatches context condition && best.all (·.1 < condition.length) then
      match (rule.get (Utf8.lit "timeout")).bind Value.asObject with
      | some timeout => some (condition.length, timeout)
      | none => best
    else best

/-- The default timeouts of a policy. -/
def policyDefault (policy : JsonMap) : JsonMap :=
  ((policy.get (Utf8.lit "default")).bind Value.asObject).getD []

/-- The timeouts of the best rule of a policy. -/
def policyRule (policy : JsonMap) : JsonMap :=
  (((((policy.get (Utf8.lit "rules")).bind Value.asArray).getD []).filterMap Value.asObject).foldl
    (bestTimeoutStep context) none).elim [] Prod.snd

/-- `merge_timeout_policy`. -/
def mergeTimeoutPolicy (target : JsonMap) (policy : Option Value) : JsonMap :=
  match policy.bind Value.asObject with
  | none => target
  | some policy => (target.extend (policyDefault policy)).extend (policyRule context policy)

/-- `as_f64`, before the conversion. -/
def Value.asNumber : Value → Option JsonNumber
  | .number value => some value
  | _ => none

/-- A timeout that `resolve_timeouts` takes from the policies. -/
def resolvedTimeout (globalPolicy providerPolicy : Option Value) (key : String) : Option JsonNumber :=
  ((mergeTimeoutPolicy context (mergeTimeoutPolicy context [] globalPolicy) providerPolicy).get
    (Utf8.lit key)).bind Value.asNumber

end Rules

end UniApi.Front
