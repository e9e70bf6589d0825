/-
**`model_timeout`: the time-out of a model, in the front.**

The README looks a model up in the table of the provider and in the global one, by its name and by keys
that its name contains. The front looks up names only.

* `modelTimeout_mem_iff`: exactly when the front takes a time-out of the README.
-/

import Mathlib.Data.List.Infix
import UniApi.Front.Timeouts

namespace UniApi.Front

open UniApi.Lib

/-! ### Tables -/

/-- The number that stands for a table. -/
def lone (table : Option Value) : Option JsonNumber := table.bind Value.asNumber

/-- The number at a key of a table. -/
def entry (table : Option Value) (key : Bytes) : Option JsonNumber :=
  (table.bind Value.asObject).bind fun values => (values.get key).bind Value.asNumber

/-- The key of the default. -/
def defaultKey : Bytes := Utf8.lit "default"

/-- The time-outs that a table gives for a request model and an upstream model. -/
def tableTimeout (requestModel originalModel : Bytes) (timeout : Value) : Option JsonNumber :=
  match timeout.asNumber with
  | some value => some value
  | none =>
    match timeout.asObject with
    | some values => [requestModel, originalModel, defaultKey].findSome? fun key =>
      (values.get key).bind Value.asNumber
    | none => none

/-- `model_timeout`. -/
def modelTimeout (provider global : JsonMap) (requestModel originalModel : Bytes) : JsonNumber :=
  ([provider, global].findSome? fun preferences =>
    (preferences.get (Utf8.lit "model_timeout")).bind (tableTimeout requestModel originalModel)).getD
      (.posInt 100)

/-! ### The documented order -/

/-- The numbers at keys that are contained in a name, the default apart. -/
def contained (table : Option Value) (name : Bytes) : List JsonNumber :=
  ((table.bind Value.asObject).getD []).filterMap fun (key, value) =>
    if key ≠ defaultKey ∧ key <:+: name then value.asNumber else none

/-- The first step that gives time-outs. -/
def firstStep : List (List JsonNumber) → List JsonNumber
  | [] => []
  | step :: rest => if step.isEmpty then firstStep rest else step

/-- **The time-outs of the README**: those of the first step that gives any. A number is a table's
default, which for the global table applies after the steps of the request model. -/
def documentedTimeouts (provider global : Option Value) (requestModel originalModel : Bytes) :
    List JsonNumber :=
  firstStep
    [(lone provider).toList, (entry provider requestModel).toList, contained provider requestModel,
      (entry provider originalModel).toList, contained provider originalModel,
      (entry provider defaultKey).toList,
      (lone global).toList, (entry global requestModel).toList, contained global requestModel,
      (entry global defaultKey).toList,
      (entry global originalModel).toList, contained global originalModel,
      [.posInt 100]]

/-- The first entry there is, or 100. -/
def firstEntry (entries : List (Option JsonNumber)) : JsonNumber :=
  (entries.findSome? id).getD (.posInt 100)

/-- **No step is skipped with effect**: a key that is contained in a name decides nothing, or one of these
keys has the value of the next entry; and a global default decides nothing before the upstream model, or
has its value. -/
def StepsKept (provider global : Option Value) (requestModel originalModel : Bytes) : Prop :=
  if (lone provider).isSome ∨ (entry provider requestModel).isSome then True
  else if contained provider requestModel ≠ [] then
    firstEntry [entry provider originalModel, entry provider defaultKey, lone global,
      entry global requestModel, entry global originalModel, entry global defaultKey] ∈
        contained provider requestModel
  else if (entry provider originalModel).isSome then True
  else if contained provider originalModel ≠ [] then
    firstEntry [entry provider defaultKey, lone global, entry global requestModel,
      entry global originalModel, entry global defaultKey] ∈ contained provider originalModel
  else if (entry provider defaultKey).isSome ∨ (lone global).isSome ∨
      (entry global requestModel).isSome then True
  else if contained global requestModel ≠ [] then
    firstEntry [entry global originalModel, entry global defaultKey] ∈ contained global requestModel
  else if (entry global defaultKey).isSome then
    ∀ value, entry global originalModel = some value → entry global defaultKey = some value
  else (entry global originalModel).isSome ∨ contained global originalModel = [] ∨
    .posInt 100 ∈ contained global originalModel

/-! ### Agreement -/

theorem tableTimeout_eq (requestModel originalModel : Bytes) (table : Option Value) :
    table.bind (tableTimeout requestModel originalModel) =
      (lone table).or ((entry table requestModel).or
        ((entry table originalModel).or (entry table defaultKey))) := by
  unfold lone entry
  cases table with
  | none => rfl
  | some timeout =>
    simp only [Option.bind_some]
    unfold tableTimeout
    cases timeout.asNumber with
    | some value => rfl
    | none =>
      cases timeout.asObject with
      | none => rfl
      | some values =>
        simp only [List.findSome?_cons, List.findSome?_nil, Option.bind_some, Option.none_or]
        cases (values.get requestModel).bind Value.asNumber <;>
          cases (values.get originalModel).bind Value.asNumber <;>
          cases (values.get defaultKey).bind Value.asNumber <;> rfl

theorem firstEntry_cons (entry : Option JsonNumber) (entries : List (Option JsonNumber)) :
    firstEntry (entry :: entries) = entry.getD (firstEntry entries) := by
  unfold firstEntry
  cases entry <;> rfl

theorem firstStep_cons (step : List JsonNumber) (steps : List (List JsonNumber)) :
    firstStep (step :: steps) = if step = [] then firstStep steps else step := by
  cases step <;> rfl

theorem modelTimeout_eq (provider global : JsonMap) (requestModel originalModel : Bytes) :
    modelTimeout provider global requestModel originalModel =
      let own := provider.get (Utf8.lit "model_timeout")
      let shared := global.get (Utf8.lit "model_timeout")
      firstEntry [lone own, entry own requestModel, entry own originalModel, entry own defaultKey,
        lone shared, entry shared requestModel, entry shared originalModel,
        entry shared defaultKey] := by
  unfold modelTimeout
  simp only [List.findSome?_cons, List.findSome?_nil, tableTimeout_eq, firstEntry_cons]
  cases lone (provider.get (Utf8.lit "model_timeout")) <;>
    cases entry (provider.get (Utf8.lit "model_timeout")) requestModel <;>
    cases entry (provider.get (Utf8.lit "model_timeout")) originalModel <;>
    cases entry (provider.get (Utf8.lit "model_timeout")) defaultKey <;> try rfl
  cases lone (global.get (Utf8.lit "model_timeout")) <;>
    cases entry (global.get (Utf8.lit "model_timeout")) requestModel <;>
    cases entry (global.get (Utf8.lit "model_timeout")) originalModel <;>
    cases entry (global.get (Utf8.lit "model_timeout")) defaultKey <;> rfl

/-- **A time-out of the README**: the front takes one if and only if no step that it leaves out has an
effect. -/
theorem modelTimeout_mem_iff (provider global : JsonMap) (requestModel originalModel : Bytes) :
    modelTimeout provider global requestModel originalModel ∈
        documentedTimeouts (provider.get (Utf8.lit "model_timeout"))
          (global.get (Utf8.lit "model_timeout")) requestModel originalModel ↔
      StepsKept (provider.get (Utf8.lit "model_timeout")) (global.get (Utf8.lit "model_timeout"))
        requestModel originalModel := by
  rw [modelTimeout_eq]
  generalize provider.get (Utf8.lit "model_timeout") = own
  generalize global.get (Utf8.lit "model_timeout") = shared
  unfold documentedTimeouts StepsKept
  dsimp only
  generalize lone own = ownLone, entry own requestModel = ownRequest,
    contained own requestModel = ownInRequest, entry own originalModel = ownOriginal,
    contained own originalModel = ownInOriginal, entry own defaultKey = ownDefault,
    lone shared = sharedLone, entry shared requestModel = sharedRequest,
    contained shared requestModel = sharedInRequest, entry shared defaultKey = sharedDefault,
    entry shared originalModel = sharedOriginal, contained shared originalModel = sharedInOriginal
  -- the steps in their order: each that gives a time-out ends the comparison
  simp only [firstStep_cons, firstEntry_cons]
  cases ownLone with
  | some value => simp
  | none =>
  cases ownRequest with
  | some value => simp
  | none =>
  by_cases inRequest : ownInRequest = []
  swap
  · simp [inRequest]
  cases ownOriginal with
  | some value => simp [inRequest]
  | none =>
  by_cases inOriginal : ownInOriginal = []
  swap
  · simp [inRequest, inOriginal]
  cases ownDefault with
  | some value => simp [inRequest, inOriginal]
  | none =>
  cases sharedLone with
  | some value => simp [inRequest, inOriginal]
  | none =>
  cases sharedRequest with
  | some value => simp [inRequest, inOriginal]
  | none =>
  by_cases inSharedRequest : sharedInRequest = []
  swap
  · simp [inRequest, inOriginal, inSharedRequest]
  cases sharedDefault with
  | some value =>
    cases sharedOriginal with
    | some other => simp [inRequest, inOriginal, inSharedRequest, eq_comm]
    | none => simp [inRequest, inOriginal, inSharedRequest]
  | none =>
  cases sharedOriginal with
  | some value => simp [inRequest, inOriginal, inSharedRequest]
  | none =>
  by_cases inSharedOriginal : sharedInOriginal = []
  · simp [inRequest, inOriginal, inSharedRequest, inSharedOriginal, firstEntry]
  · simp [inRequest, inOriginal, inSharedRequest, inSharedOriginal, firstEntry]

/-! ### A family of models -/

/-- A table for a family of models. -/
def familyTable : JsonMap :=
  [(Utf8.lit "model_timeout", .object [(Utf8.lit "default", .number (.posInt 60)),
    (Utf8.lit "gpt-5.2", .number (.posInt 20))])]

/-- **A family of models** has the time-out of its key in the README, and the default in the front. -/
theorem family_key_skipped :
    documentedTimeouts (familyTable.get (Utf8.lit "model_timeout")) none
        (Utf8.lit "gpt-5.2-2025-12-11") (Utf8.lit "gpt-5.2-2025-12-11") = [.posInt 20] ∧
      modelTimeout familyTable [] (Utf8.lit "gpt-5.2-2025-12-11")
        (Utf8.lit "gpt-5.2-2025-12-11") = .posInt 60 := by
  decide

end UniApi.Front
