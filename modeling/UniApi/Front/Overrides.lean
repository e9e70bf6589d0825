/-
**`apply_overrides`: the overrides of a provider, merged into a request body.**

A section of overrides is merged key by key, then its removals are applied: a text removes what is at
the end of a dotted path, and a rule removes what matches its conditions.
-/

import UniApi.Front.JsonPaths

namespace UniApi.Front

open UniApi.Lib UniApi.Upstream

/-! ### Paths -/

/-- `str::trim`. -/
def trimText (text : Bytes) : Bytes := (Utf8.encodePoints (trim text)).getD text

/-- The parts of `delete_path`. -/
def trimmedParts (path : Bytes) : List Bytes :=
  ((segments path).map trimText).filter (!·.isEmpty)

/-- The parts of `get_path_mut` and `get_value_path`. -/
def rawParts (path : Bytes) : List Bytes := 
  (segments path).filter fun part => !(trimText part).isEmpty

/-- `delete_path`. -/
def deletePath (root : JsonMap) (path : Bytes) : JsonMap := deleteParts root (trimmedParts path)

/-! ### Merging -/

/-- The key of the removals. -/
def removeKey : Bytes := Utf8.lit "__remove__"

mutual

/-- `merge_value`. -/
def mergeValue (target : Value) : Value → Value
  | .object replacement =>
    match target with
    | .object members => .object (mergeMembers members replacement)
    | _ => .object replacement
  | .null => .null
  | .bool value => .bool value
  | .number value => .number value
  | .string text => .string text
  | .array items => .array items

/-- The loop of `merge_value`. -/
def mergeMembers (target : JsonMap) : JsonMap → JsonMap
  | [] => target
  | (key, value) :: rest =>
    if key = removeKey then mergeMembers target rest
    else mergeMembers (target.insert key (mergeValue ((target.get key).getD .null) value)) rest

end

/-- The keys that are left to the router. -/
def skipped : List Bytes := [Utf8.lit "service_tier", Utf8.lit "translation_options"]

/-- The loop of `apply_override_section`. -/
def mergeSection (models : List Bytes) (skipModelKeys : Bool) (root : JsonMap) :
    JsonMap → JsonMap
  | [] => root
  | (key, value) :: rest =>
    if key = removeKey ∨ key ∈ skipped ∨ (skipModelKeys = true ∧ key ∈ models) then
      mergeSection models skipModelKeys root rest
    else
      mergeSection models skipModelKeys
        (root.insert key (mergeValue ((root.get key).getD .null) value)) rest

/-! ### Removing -/

/-- `matches_condition`. -/
def matchesCondition (value condition : Value) : Bool :=
  match condition with
  | .string _ => sameValue value condition
  | .object members => members.all fun (path, expected) =>
    (getParts value (rawParts path)).any (sameValue · expected)
  | _ => false

/-- `matches_any_condition`. -/
def matchesAnyCondition (value condition : Value) : Bool :=
  match condition with
  | .array conditions => conditions.any (matchesCondition value)
  | other => matchesCondition value other

/-- `should_remove`. -/
def shouldRemove (rule : JsonMap) (value : Value) : Bool :=
  (rule.get (Utf8.lit "where")).any (matchesCondition value) ||
    (rule.get (Utf8.lit "where_any")).any (matchesAnyCondition value)

/-- `rule.get("drop_empty").and_then(Value::as_bool) == Some(true)`. -/
def dropsEmpty (rule : JsonMap) : Bool :=
  match rule.get (Utf8.lit "drop_empty") with
  | some (.bool value) => value
  | _ => false

/-- A rule has conditions. -/
def hasConditions (rule : JsonMap) : Bool :=
  (rule.get (Utf8.lit "where")).isSome || (rule.get (Utf8.lit "where_any")).isSome

/-- `get_path_mut`. -/
def getPathMut (root : JsonMap) (path : Bytes) : Option Value :=
  match rawParts path with
  | [] => none
  | parts => getParts (.object root) parts

/-- `apply_structured_removal`. -/
def applyStructuredRemoval (root rule : JsonMap) : JsonMap :=
  match (rule.get (Utf8.lit "path")).bind Value.asStr with
  | none => root
  | some path =>
    if !hasConditions rule then deletePath root path
    else
      match getPathMut root path with
      | none => root
      | some (.array items) =>
        let kept := items.filter (!shouldRemove rule ·)
        let retained := modifyParts (fun _ => .array kept) root (rawParts path)
        if kept.isEmpty && dropsEmpty rule then deletePath retained path else retained
      | some target => if shouldRemove rule target then deletePath root path else root

/-- One item of `apply_removals`. -/
def applyRemoval (root : JsonMap) : Value → JsonMap
  | .string path => if path ∈ skipped then root else deletePath root path
  | .object rule =>
    if ((JsonMap.get rule (Utf8.lit "path")).bind Value.asStr).any (· ∈ skipped) then root
    else applyStructuredRemoval root rule
  | _ => root

/-- The items of `apply_removals`. -/
def removalItems : Value → List Value
  | .array items => items
  | value => [value]

/-- `apply_removals`. -/
def applyRemovals (root : JsonMap) (removals : Value) : JsonMap :=
  (removalItems removals).foldl applyRemoval root

/-! ### Sections -/

/-- `apply_override_section`. -/
def applyOverrideSection (models : List Bytes) (skipModelKeys : Bool) (root overrides : JsonMap) :
    JsonMap :=
  let merged := mergeSection models skipModelKeys root overrides
  match overrides.get removeKey with
  | some removals => applyRemovals merged removals
  | none => merged

/-- `apply_overrides`, for the models and the preferences of a provider. -/
def applyOverrides (root : JsonMap) (models : List Bytes) (preferences : JsonMap)
    (requestModel : Bytes) : JsonMap :=
  match (preferences.get (Utf8.lit "post_body_parameter_overrides")).bind Value.asObject with
  | none => root
  | some overrides =>
    let first := applyOverrideSection models true root overrides
    match (overrides.get requestModel).bind Value.asObject with
    | some model => applyOverrideSection models false first model
    | none => first

end UniApi.Front
