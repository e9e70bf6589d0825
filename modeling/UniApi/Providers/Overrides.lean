/-
**`apply_post_body_parameter_overrides`: the overrides of a provider in Python.**

The parts of a path are stripped, a text removes a key of the body itself, and values are compared as
Python compares them. A rule whose path cannot be hashed raises.
-/

import UniApi.Front.Overrides

namespace UniApi.Providers

open UniApi.Lib UniApi.Upstream
open UniApi.Front (Value JsonMap Floats segments getParts modifyParts deleteParts equalValue removeKey)

/-! ### Paths -/

/-- `str.strip`. -/
def stripText (text : Bytes) : Bytes := (Utf8.encodePoints (PyText.strip (pyText text))).getD text

/-- `_path_parts`. -/
def pathParts (path : Bytes) : List Bytes := ((segments path).map stripText).filter (!·.isEmpty)

/-- `_get_path`. -/
def getPath (value : Value) (path : Bytes) : Option Value := getParts value (pathParts path)

/-- `_delete_path`. -/
def deletePath (value : JsonMap) (path : Bytes) : JsonMap := deleteParts value (pathParts path)

/-- `_set_path`, of a path that is there. -/
def setPath (value : JsonMap) (path : Bytes) (replacement : Value) : JsonMap :=
  modifyParts (fun _ => replacement) value (pathParts path)

/-! ### Merging -/

mutual

/-- `target[key] = ..` of the merging loops: dicts are merged, other values are replaced. -/
def mergedValue (current : Option Value) : Value → Value
  | .object override =>
    match current with
    | some (.object members) => .object (mergePostBodyOverrideDict members override)
    | _ => .object override
  | .null => .null
  | .bool value => .bool value
  | .number value => .number value
  | .string text => .string text
  | .array items => .array items

/-- `_merge_post_body_override_dict`. -/
def mergePostBodyOverrideDict (target : JsonMap) : JsonMap → JsonMap
  | [] => target
  | (key, value) :: rest =>
    if key = removeKey then mergePostBodyOverrideDict target rest
    else mergePostBodyOverrideDict (target.insert key (mergedValue (target.get key) value)) rest

end

/-- The `skip_keys` of the Responses path. -/
def skipKeys : List Bytes := [Utf8.lit "service_tier", Utf8.lit "translation_options"]

/-- `apply_override_values`. -/
def applyOverrideValues (modelDict : List Bytes) (skipModelOverrideKeys : Bool) (payload : JsonMap) :
    JsonMap → JsonMap
  | [] => payload
  | (key, value) :: rest =>
    if key ∈ skipKeys ∨ key = removeKey ∨ (skipModelOverrideKeys = true ∧ key ∈ modelDict) then
      applyOverrideValues modelDict skipModelOverrideKeys payload rest
    else
      applyOverrideValues modelDict skipModelOverrideKeys
        (payload.insert key (mergedValue (payload.get key) value)) rest

/-! ### Removing -/

section Removals

variable (floats : Floats)

/-- `_matches_condition`. -/
def matchesCondition (value condition : Value) : Bool :=
  match condition with
  | .string _ => equalValue floats value condition
  | .object members => members.all fun (key, expected) =>
    (getPath value key).any (equalValue floats · expected)
  | _ => false

/-- `_matches_any_condition`. -/
def matchesAnyCondition (value conditions : Value) : Bool :=
  match conditions with
  | .array conditions => conditions.any (matchesCondition floats value)
  | other => matchesCondition floats value other

/-- `should_remove`. -/
def shouldRemove (rule : JsonMap) (value : Value) : Bool :=
  (rule.get (Utf8.lit "where")).any (matchesCondition floats value) ||
    (rule.get (Utf8.lit "where_any")).any (matchesAnyCondition floats value)

/-- `_apply_structured_removal`. -/
def applyStructuredRemoval (payload rule : JsonMap) : JsonMap :=
  match rule.get (Utf8.lit "path") with
  | some (.string path) =>
    if (stripText path).isEmpty then payload
    else
      match getPath (.object payload) path with
      | none => payload
      | some target =>
        if (rule.get (Utf8.lit "where")).isNone && (rule.get (Utf8.lit "where_any")).isNone then
          deletePath payload path
        else
          match target with
          | .array items =>
            let filtered := items.filter (!shouldRemove floats rule ·)
            if filtered.length = items.length then payload
            else if !filtered.isEmpty ||
                !truthy ((rule.get (Utf8.lit "drop_empty")).getD (.bool false)) then
              setPath payload path (.array filtered)
            else deletePath payload path
          | target => if shouldRemove floats rule target then deletePath payload path else payload
  | _ => payload

/-- `normalize_removals`. -/
def normalizeRemovals : Value → List Value
  | .string text => if (stripText text).isEmpty then [] else [.string (stripText text)]
  | .array items => items.filterMap fun item =>
    match item with
    | .string text => if (stripText text).isEmpty then none else some (.string (stripText text))
    | .object rule => some (.object rule)
    | _ => none
  | .object rule => [.object rule]
  | _ => []

/-- One removal of `apply_removals`; `none` where `key in skipped` raises. -/
def applyRemoval (payload : JsonMap) : Value → Option JsonMap
  | .string key => some (if key ∈ skipKeys then payload else payload.erase key)
  | .object rule =>
    match (JsonMap.get rule (Utf8.lit "path")).getD .null with
    | .array _ => none
    | .object _ => none
    | .string key =>
      some (if key ∈ skipKeys then payload else applyStructuredRemoval floats payload rule)
    | _ => some (applyStructuredRemoval floats payload rule)
  | _ => some payload

/-- `apply_removals`. -/
def applyRemovals (payload override : JsonMap) : Option JsonMap :=
  (normalizeRemovals ((override.get removeKey).getD .null)).foldlM (applyRemoval floats) payload

/-! ### Sections -/

/-- One section of `apply_post_body_parameter_overrides`. -/
def applySection (modelDict : List Bytes) (skipModelOverrideKeys : Bool) (payload override : JsonMap) :
    Option JsonMap :=
  applyRemovals floats (applyOverrideValues modelDict skipModelOverrideKeys payload override) override

/-- `apply_post_body_parameter_overrides`, for the model dict and the preferences of a provider. -/
def applyPostBodyParameterOverrides (safeGet : SafeGet) (payload : JsonMap) (modelDict : List Bytes)
    (preferences : JsonMap) (requestModel : Bytes) : Option JsonMap :=
  let found := safeGet.get (.object [(Utf8.lit "preferences", .object preferences)])
    ["preferences", "post_body_parameter_overrides"] (.object [])
  match if truthy found then found else .object [] with
  | .object overrides => do
    let first ← applySection floats modelDict true payload overrides
    match JsonMap.get overrides requestModel with
    | some (.object model) => applySection floats modelDict false first model
    | _ => return first
  | _ => some payload

end Removals

end UniApi.Providers
