/-
**Provider selection in Python: the rules of an API key, and the providers they name.**

Rules are turned into texts `provider/model`, and these back into providers.

* `buildRoutingIndex_providersByModel`, `buildRoutingIndex_modelsByProvider`,
  `buildRoutingIndex_providerByName`: what the routing index finds.
-/

import Mathlib.Data.List.Nodup
import UniApi.Upstream.ResponsesErrors

namespace UniApi.Routing

open UniApi.Lib UniApi.Front UniApi.Upstream

/-! ### Providers -/

/-- The keys of a model dict. -/
structure ModelDict where
  keys : List PyText
  distinct : keys.Nodup
  deriving DecidableEq

/-- A provider of the configuration, or the view of one: `modelDict` is what `get_model_dict` of the
core package makes of it, and a key that is missing is `none` or `null`. -/
structure Provider where
  name : PyText
  modelDictCache : Option ModelDict
  modelDict : ModelDict
  preferences : Option JsonMap
  maxRequestBodyBytes : Value
  excludeEndpoints : Value

namespace Provider

/-- `_provider_model_dict`. -/
def providerModelDict (provider : Provider) : ModelDict :=
  match provider.modelDictCache with
  | some cached => if cached.keys.isEmpty then provider.modelDict else cached
  | none => provider.modelDict

/-- `_provider_view`, which has no `max_request_body_bytes`. -/
def providerView (provider : Provider) (modelDict : ModelDict) : Provider where
  name := provider.name
  modelDictCache := some modelDict
  modelDict := modelDict
  preferences := provider.preferences
  maxRequestBodyBytes := .null
  excludeEndpoints := provider.excludeEndpoints

/-- The view of an API key that stands for its providers. -/
def nestedView (name : PyText) (requestModel : PyText) : Provider where
  name := name
  modelDictCache := some ⟨[requestModel], List.nodup_singleton _⟩
  modelDict := ⟨[requestModel], List.nodup_singleton _⟩
  preferences := none
  maxRequestBodyBytes := .null
  excludeEndpoints := .null

end Provider

/-! ### The routing index -/

theorem find?_key_eq_some {α β : Type} [BEq β] [LawfulBEq β] {key : α → β} {items : List α}
    (distinct : (items.map key).Nodup) {value : β} {item : α} :
    items.find? (key · == value) = some item ↔ item ∈ items ∧ key item = value := by
  constructor
  · intro found
    exact ⟨List.mem_of_find?_eq_some found, by simpa using List.find?_some found⟩
  · rintro ⟨isItem, isKey⟩
    rcases found : items.find? (key · == value) with _ | other
    · rw [List.find?_eq_none] at found
      exact absurd (found item isItem) (by simp [isKey])
    · have isOther : key other = value := by simpa using List.find?_some found
      exact congrArg some (List.inj_on_of_nodup_map distinct (List.mem_of_find?_eq_some found) isItem
        (isOther.trans isKey.symm))

/-- `RoutingIndex`. -/
structure RoutingIndex where
  providerByName : PyText → Option Provider
  modelsByProvider : PyText → List PyText
  providersByModel : PyText → List Provider

namespace RoutingIndex

/-- The index of no providers. -/
def empty : RoutingIndex := ⟨fun _ => none, fun _ => [], fun _ => []⟩

/-- `setdefault(model_name, []).append(provider)`. -/
def addModel (provider : Provider) (index : PyText → List Provider) (model : PyText) :
    PyText → List Provider :=
  Function.update index model (index model ++ [provider])

/-- One provider of `build_routing_index`. -/
def add (index : RoutingIndex) (provider : Provider) : RoutingIndex :=
  if provider.name.isEmpty then index
  else
    let models := provider.providerModelDict.keys
    { providerByName := Function.update index.providerByName provider.name (some provider)
      modelsByProvider := Function.update index.modelsByProvider provider.name models
      providersByModel := models.foldl (addModel provider) index.providersByModel }

end RoutingIndex

/-- `build_routing_index`. -/
def buildRoutingIndex (providers : List Provider) : RoutingIndex :=
  providers.foldl RoutingIndex.add RoutingIndex.empty

namespace RoutingIndex

theorem foldl_addModel (provider : Provider) {models : List PyText} (distinct : models.Nodup)
    (index : PyText → List Provider) (model : PyText) :
    models.foldl (addModel provider) index model =
      index model ++ if models.contains model then [provider] else [] := by
  induction models generalizing index with
  | nil => simp
  | cons first rest ih =>
    obtain ⟨notLater, distinct⟩ := List.nodup_cons.mp distinct
    rw [List.foldl_cons, ih distinct, addModel]
    by_cases isFirst : model = first
    · subst isFirst
      simp [notLater]
    · simp [isFirst]

theorem add_of_named (index : RoutingIndex) {provider : Provider} (named : provider.name ≠ []) :
    index.add provider =
      { providerByName := Function.update index.providerByName provider.name (some provider)
        modelsByProvider := Function.update index.modelsByProvider provider.name
          provider.providerModelDict.keys
        providersByModel := provider.providerModelDict.keys.foldl (addModel provider)
          index.providersByModel } := by
  rw [add, if_neg (by simp [named])]

theorem foldl_providersByModel {providers : List Provider}
    (named : ∀ provider ∈ providers, provider.name ≠ []) (index : RoutingIndex) (model : PyText) :
    (providers.foldl add index).providersByModel model =
      index.providersByModel model ++
        providers.filter (·.providerModelDict.keys.contains model) := by
  induction providers generalizing index with
  | nil => simp
  | cons provider rest ih =>
    rw [List.foldl_cons, ih fun other isOther => named other (List.mem_cons_of_mem _ isOther),
      add_of_named index (named provider List.mem_cons_self)]
    dsimp only
    rw [foldl_addModel provider provider.providerModelDict.distinct, List.filter_cons]
    split <;> simp

theorem foldl_byName {providers : List Provider} (named : ∀ provider ∈ providers, provider.name ≠ [])
    (distinct : (providers.map Provider.name).Nodup) (index : RoutingIndex) (name : PyText) :
    (providers.foldl add index).providerByName name =
        (providers.find? (·.name == name)).or (index.providerByName name) ∧
      (providers.foldl add index).modelsByProvider name =
        ((providers.find? (·.name == name)).map (·.providerModelDict.keys)).getD
          (index.modelsByProvider name) := by
  induction providers generalizing index with
  | nil => simp
  | cons provider rest ih =>
    rw [List.map_cons, List.nodup_cons] at distinct
    obtain ⟨atName, modelsThere⟩ := ih
      (fun other isOther => named other (List.mem_cons_of_mem _ isOther)) distinct.2
      (index.add provider)
    rw [List.foldl_cons, atName, modelsThere, add_of_named index (named provider List.mem_cons_self)]
    by_cases isName : provider.name = name
    · have absent : rest.find? (·.name == name) = none := by
        rw [List.find?_eq_none]
        intro other isOther same
        rw [beq_iff_eq, ← isName] at same
        exact distinct.1 (List.mem_map.mpr ⟨other, isOther, same⟩)
      rw [absent, List.find?_cons_of_pos (by simp [isName])]
      simp [isName]
    · rw [List.find?_cons_of_neg (by simp [isName])]
      simp [Ne.symm isName]

end RoutingIndex

section Index

variable {providers : List Provider} (named : ∀ provider ∈ providers, provider.name ≠ [])

include named

/-- **The providers of a model**, in the order of the configuration. -/
theorem buildRoutingIndex_providersByModel (model : PyText) :
    (buildRoutingIndex providers).providersByModel model =
      providers.filter (·.providerModelDict.keys.contains model) :=
  RoutingIndex.foldl_providersByModel named RoutingIndex.empty model

/-- **The provider of a name**, where names are distinct. -/
theorem buildRoutingIndex_providerByName (distinct : (providers.map Provider.name).Nodup)
    (name : PyText) :
    (buildRoutingIndex providers).providerByName name = providers.find? (·.name == name) := by
  rw [buildRoutingIndex, (RoutingIndex.foldl_byName named distinct RoutingIndex.empty name).1]
  exact Option.or_none

/-- **The models of a name**, where names are distinct. -/
theorem buildRoutingIndex_modelsByProvider (distinct : (providers.map Provider.name).Nodup)
    (name : PyText) :
    (buildRoutingIndex providers).modelsByProvider name =
      ((providers.find? (·.name == name)).map (·.providerModelDict.keys)).getD [] :=
  (RoutingIndex.foldl_byName named distinct RoutingIndex.empty name).2

end Index

/-! ### Rules -/

/-- `/`. -/
def slash : CodePoint := 47

/-- `*`. -/
def star : CodePoint := 42

/-- `text.rstrip(letter)`. -/
def rstrip (letter : CodePoint) (text : PyText) : PyText :=
  (text.reverse.dropWhile (· == letter)).reverse

/-- `text.split("/")[0]`. -/
def beforeSlash (text : PyText) : PyText := text.takeWhile (· != slash)

/-- `"/".join(text.split("/")[1:])`. -/
def afterSlash (text : PyText) : PyText := (text.dropWhile (· != slash)).drop 1

/-- `request_model.endswith("*")`. -/
def isOpen (requestModel : PyText) : Bool := requestModel.getLast? == some star

/-- `request_model.endswith("*") and model.startswith(request_model.rstrip("*"))`. -/
def opensTo (requestModel model : PyText) : Bool :=
  isOpen requestModel && (rstrip star requestModel).isPrefixOf model

/-- `name.startswith("sk-") and name in api_list`. -/
def isNestedKey (apiList : List PyText) (name : PyText) : Bool :=
  (Utf8.points "sk-").isPrefixOf name && apiList.contains name

/-- `_provider_rule`. -/
def providerRule (name model : PyText) : PyText := name ++ slash :: model

/-- A rule of a provider without a slash in its name gives its two parts back. -/
theorem beforeSlash_providerRule {name : PyText} (noSlash : slash ∉ name) (model : PyText) :
    beforeSlash (providerRule name model) = name ∧ afterSlash (providerRule name model) = model := by
  have other : ∀ point ∈ name, (point != slash) = true := fun point isPoint =>
    bne_iff_ne.mpr fun isSlash => noSlash (isSlash ▸ isPoint)
  constructor
  · rw [beforeSlash, providerRule, List.takeWhile_append_of_pos other,
      List.takeWhile_cons_of_neg (by simp), List.append_nil]
  · rw [afterSlash, providerRule, List.dropWhile_append_of_pos other,
      List.dropWhile_cons_of_neg (by simp)]
    rfl

/-- `rule.startswith("<") and rule.endswith(">")`. -/
def isBracketed (rule : PyText) : Bool := rule.head? == some 60 && rule.getLast? == some 62

/-- `rule[1:-1]`. -/
def unbracketed (rule : PyText) : PyText := (rule.drop 1).dropLast

section Rules

variable (providers : List Provider) (requestModel : PyText) (apiList : List PyText)
  (modelsList : PyText → List PyText)

/-- `get_provider_rules` of a rule that is a text. -/
def getProviderRules (modelRule : PyText) : List PyText :=
  let index := buildRoutingIndex providers
  if modelRule = Utf8.points "all" then
    if isOpen requestModel then
      providers.flatMap fun provider =>
        ((index.modelsByProvider provider.name).filter
          ((rstrip star requestModel).isPrefixOf ·)).map (providerRule provider.name)
    else
      (index.providersByModel requestModel).map fun provider => providerRule provider.name requestModel
  else if modelRule.contains slash then
    if isBracketed modelRule then
      let model := unbracketed modelRule
      if model = requestModel ∨ opensTo requestModel model = true then
        (index.providersByModel model).map fun provider => providerRule provider.name model
      else []
    else
      let providerName := beforeSlash modelRule
      let model := afterSlash modelRule
      let available :=
        if isNestedKey apiList providerName then modelsList providerName
        else index.modelsByProvider providerName
      if model = [star] then
        (if available.contains requestModel then [providerRule providerName requestModel] else []) ++
          (available.filter (opensTo requestModel ·)).map (providerRule providerName)
      else if (model = requestModel ∨ opensTo requestModel model = true) ∧ available.contains model then
        [providerRule providerName model]
      else []
  else if modelRule = requestModel ∨ opensTo requestModel modelRule = true then
    (index.providersByModel modelRule).map fun provider => providerRule provider.name modelRule
  else []

/-- One text of `get_provider_list`. -/
def providerOfItem (item : PyText) : Option Provider :=
  let providerName := beforeSlash item
  if isNestedKey apiList providerName then some (Provider.nestedView providerName requestModel)
  else if !item.contains slash then none
  else
    match (buildRoutingIndex providers).providerByName providerName with
    | none => none
    | some provider =>
      let modelDict := provider.providerModelDict
      let model := afterSlash item
      if !modelDict.keys.contains model then none
      else if model = requestModel ∨ opensTo requestModel model = true then
        some (provider.providerView modelDict)
      else none

/-- `get_provider_list`. -/
def getProviderList (providerRules : List PyText) : List Provider :=
  providerRules.filterMap (providerOfItem providers requestModel apiList)

/-- `get_matching_providers`, of the rules of the API key. -/
def getMatchingProviders (modelRules : List PyText) : List Provider :=
  getProviderList providers requestModel apiList
    (modelRules.flatMap (getProviderRules providers requestModel apiList modelsList))

end Rules

end UniApi.Routing
