/-
**The models that are listed for an API key, and the models that are routed for it.**

`post_all_models` and `get_matching_providers` read the same rules. They read a rule with more than one
slash, a rule in angle brackets and a provider whose name has a slash in different ways.

* `routes_iff`: which rules route a model;
* `listsRule_iff`, `routesRule_iff`: the rules that both read alike, and those that one reads alone;
* `advertised_iff_routed_iff`: exactly when a model is listed if and only if it is routed.
-/

import UniApi.Routing.KeyReferences

namespace UniApi.Routing

open UniApi.Lib UniApi.Front

/-! ### The routing index of any names -/

variable {provider : Provider} {resolved : Resolved} {name model : PyText}

theorem add_of_unnamed (index : RoutingIndex) (unnamed : provider.name = []) :
    index.add provider = index := by
  rw [RoutingIndex.add, if_pos (by simp [unnamed])]

theorem buildRoutingIndex_named (providers : List Provider) :
    buildRoutingIndex providers = buildRoutingIndex (providers.filter (!·.name.isEmpty)) := by
  have each : ∀ index : RoutingIndex, providers.foldl RoutingIndex.add index =
      (providers.filter (!·.name.isEmpty)).foldl RoutingIndex.add index := by
    induction providers with
    | nil => exact fun _ => rfl
    | cons provider rest ih =>
      intro index
      rw [List.foldl_cons, List.filter_cons]
      by_cases unnamed : provider.name = []
      · rw [add_of_unnamed index unnamed, if_neg (by simp [unnamed]), ih]
      · rw [if_pos (by simp [unnamed]), List.foldl_cons, ih]
  exact each RoutingIndex.empty

section Index

variable {providers : List Provider}

theorem named_of_filter : ∀ provider ∈ providers.filter (!·.name.isEmpty), provider.name ≠ [] := by
  intro provider isNamed unnamed
  simp [unnamed] at isNamed

theorem mem_providersByModel {model : PyText} :
    provider ∈ (buildRoutingIndex providers).providersByModel model ↔
      (provider ∈ providers ∧ provider.name ≠ []) ∧ model ∈ provider.providerModelDict.keys := by
  rw [buildRoutingIndex_named, buildRoutingIndex_providersByModel named_of_filter]
  simp only [List.mem_filter, List.contains_iff_mem, Bool.not_eq_true', List.isEmpty_eq_false_iff]

theorem distinct_filter (distinct : (providers.map Provider.name).Nodup) :
    ((providers.filter (!·.name.isEmpty)).map Provider.name).Nodup :=
  distinct.sublist (List.filter_sublist.map _)

theorem providerByName_eq_some (distinct : (providers.map Provider.name).Nodup) {name : PyText} :
    (buildRoutingIndex providers).providerByName name = some provider ↔
      (provider ∈ providers ∧ provider.name ≠ []) ∧ provider.name = name := by
  rw [buildRoutingIndex_named, buildRoutingIndex_providerByName named_of_filter (distinct_filter distinct),
    find?_key_eq_some (distinct_filter distinct)]
  simp only [List.mem_filter, Bool.not_eq_true', List.isEmpty_eq_false_iff]

theorem mem_modelsOfName :
    model ∈ modelsOfName providers name ↔
      ∃ provider ∈ providers, provider.name = name ∧ model ∈ provider.providerModelDict.keys := by
  simp only [modelsOfName, List.mem_flatMap, List.mem_filter, beq_iff_eq, and_assoc]

theorem mem_modelsByProvider (distinct : (providers.map Provider.name).Nodup) :
    model ∈ (buildRoutingIndex providers).modelsByProvider name ↔
      name ≠ [] ∧ model ∈ modelsOfName providers name := by
  rw [buildRoutingIndex_named,
    buildRoutingIndex_modelsByProvider named_of_filter (distinct_filter distinct), mem_modelsOfName]
  constructor
  · intro isModel
    rcases found : (providers.filter (!·.name.isEmpty)).find? (·.name == name) with _ | provider
    · simp [found] at isModel
    · rw [found] at isModel
      obtain ⟨isNamed, isName⟩ := (find?_key_eq_some (distinct_filter distinct)).mp found
      obtain ⟨isProvider, _⟩ := List.mem_filter.mp isNamed
      exact ⟨isName ▸ named_of_filter provider isNamed, provider, isProvider, isName, isModel⟩
  · rintro ⟨named, provider, isProvider, rfl, isModel⟩
    have found : (providers.filter (!·.name.isEmpty)).find? (·.name == provider.name) = some provider :=
      (find?_key_eq_some (distinct_filter distinct)).mpr
        ⟨List.mem_filter.mpr ⟨isProvider, by simp [named]⟩, rfl⟩
    rw [found]
    exact isModel

end Index

/-! ### Routing one model -/

section Route

variable (providers : List Provider) (apiList : List PyText)

/-- The texts of rules for a provider lead back to it, or to an API key. -/
def Routable (name : PyText) : Prop := slash ∉ name ∨ isNestedKey apiList (beforeSlash name) = true

/-- Some provider has the model, and can be routed to. -/
def RoutableOffer (model : PyText) : Prop :=
  ∃ provider ∈ providers, (provider.name ≠ [] ∧ model ∈ provider.providerModelDict.keys) ∧
    Routable apiList provider.name

/-- A provider or an API key that a rule names has the model. -/
def Available (modelsList : PyText → List PyText) (name model : PyText) : Prop :=
  if isNestedKey apiList name then model ∈ modelsList name
  else name ≠ [] ∧ model ∈ modelsOfName providers name

/-- A rule routes a model. -/
def RoutesRule (modelsList : PyText → List PyText) (rule model : PyText) : Prop :=
  if rule = Utf8.points "all" then RoutableOffer providers apiList model
  else if rule.contains slash then
    if isBracketed rule then unbracketed rule = model ∧ RoutableOffer providers apiList model
    else (afterSlash rule = [star] ∨ afterSlash rule = model) ∧
      Available providers apiList modelsList (beforeSlash rule) model
  else rule = model ∧ RoutableOffer providers apiList model

end Route

section Routes

variable {providers : List Provider} {apiList : List PyText} {modelsList : PyText → List PyText}
  {model : PyText}

theorem providerOfItem_nested {item : PyText} (nested : isNestedKey apiList (beforeSlash item) = true) :
    (providerOfItem providers model apiList item).isSome := by
  rw [providerOfItem]
  dsimp only
  rw [if_pos nested]
  rfl

/-- The text of a rule leads to a provider that has the model, or to a key of its name. -/
theorem providerOfItem_offered (distinct : (providers.map Provider.name).Nodup)
    (isProvider : provider ∈ providers) (named : provider.name ≠ [])
    (offered : model ∈ provider.providerModelDict.keys) (noSlash : slash ∉ provider.name) :
    (providerOfItem providers model apiList (providerRule provider.name model)).isSome := by
  obtain ⟨before, after⟩ := beforeSlash_providerRule noSlash model
  by_cases nested : isNestedKey apiList provider.name = true
  · exact providerOfItem_nested (before.symm ▸ nested)
  · have slashed : (providerRule provider.name model).contains slash = true :=
      List.contains_iff_mem.mpr (List.mem_append_right _ List.mem_cons_self)
    have found := (providerByName_eq_some distinct).mpr ⟨⟨isProvider, named⟩, rfl⟩
    have there : provider.providerModelDict.keys.contains model = true := List.contains_iff_mem.mpr offered
    simp only [providerOfItem, before, nested, slashed, found, after, there, Bool.not_true,
      Bool.false_eq_true, if_false, true_or, if_true, Option.isSome_some]

theorem beforeSlash_of_mem {name : PyText} (slashed : slash ∈ name) :
    beforeSlash (providerRule name model) = beforeSlash name ∧
      ∃ first, afterSlash (providerRule name model) = first ++ slash :: model := by
  have stops : name.dropWhile (· != slash) ≠ [] := by
    intro passed
    have other := List.dropWhile_eq_nil_iff.mp passed slash slashed
    simp at other
  constructor
  · rw [beforeSlash, providerRule, List.takeWhile_append, if_neg, beforeSlash]
    intro whole
    have cut := congrArg List.length (List.takeWhile_append_dropWhile (p := (· != slash)) (l := name))
    rw [List.length_append, whole, Nat.add_eq_left, List.length_eq_zero_iff] at cut
    exact stops cut
  · obtain ⟨point, rest, isCons⟩ := List.exists_cons_of_ne_nil stops
    refine ⟨rest, ?_⟩
    rw [afterSlash, providerRule, List.dropWhile_append, if_neg (by simp [isCons]), isCons]
    rfl

theorem providerOfItem_slashed (closed : isOpen model = false) {name : PyText} (slashed : slash ∈ name)
    (single : isNestedKey apiList (beforeSlash name) = false) :
    providerOfItem providers model apiList (providerRule name model) = none := by
  obtain ⟨before, first, after⟩ : beforeSlash (providerRule name model) = beforeSlash name ∧
      ∃ first, afterSlash (providerRule name model) = first ++ slash :: model := beforeSlash_of_mem slashed
  have there : (providerRule name model).contains slash = true :=
    List.contains_iff_mem.mpr (List.mem_append_right _ List.mem_cons_self)
  have longer : first ++ slash :: model ≠ model := by
    intro same
    have length := congrArg List.length same
    rw [List.length_append, List.length_cons] at length
    omega
  rw [providerOfItem]
  simp only [before, single, there, Bool.not_true, Bool.false_eq_true, if_false]
  split
  · rfl
  · simp only [after, opensTo, closed, Bool.false_and, Bool.false_eq_true, or_false, longer, if_false,
      ite_self]

/-- Which providers of a model are routed to. -/
theorem providerOfItem_isSome (distinct : (providers.map Provider.name).Nodup)
    (closed : isOpen model = false) (isProvider : provider ∈ providers)
    (named : provider.name ≠ []) (offered : model ∈ provider.providerModelDict.keys) :
    (providerOfItem providers model apiList (providerRule provider.name model)).isSome ↔
      Routable apiList provider.name := by
  by_cases slashed : slash ∈ provider.name
  · rw [Routable, or_iff_right (not_not_intro slashed)]
    constructor
    · intro found
      by_contra single
      rw [providerOfItem_slashed closed slashed (Bool.eq_false_iff.mpr single)] at found
      exact Bool.false_ne_true found
    · intro nested
      refine providerOfItem_nested ?_
      rwa [(beforeSlash_of_mem slashed).1]
  · exact iff_of_true (providerOfItem_offered distinct isProvider named offered slashed) (Or.inl slashed)

/-- The texts of rules for all providers of a model. -/
theorem offers_routed (distinct : (providers.map Provider.name).Nodup) (closed : isOpen model = false) :
    (∃ item ∈ ((buildRoutingIndex providers).providersByModel model).map
        (fun provider => providerRule provider.name model),
      (providerOfItem providers model apiList item).isSome) ↔ RoutableOffer providers apiList model := by
  constructor
  · rintro ⟨item, isItem, found⟩
    obtain ⟨provider, isProvider, rfl⟩ := List.mem_map.mp isItem
    obtain ⟨⟨isProvider, named⟩, offered⟩ := mem_providersByModel.mp isProvider
    exact ⟨provider, isProvider, ⟨named, offered⟩,
      (providerOfItem_isSome distinct closed isProvider named offered).mp found⟩
  · rintro ⟨provider, isProvider, ⟨named, offered⟩, routable⟩
    exact ⟨_, List.mem_map.mpr ⟨provider, mem_providersByModel.mpr ⟨⟨isProvider, named⟩, offered⟩, rfl⟩,
      (providerOfItem_isSome distinct closed isProvider named offered).mpr routable⟩

theorem mem_available (distinct : (providers.map Provider.name).Nodup) {name other : PyText} :
    other ∈ (if isNestedKey apiList name then modelsList name
      else (buildRoutingIndex providers).modelsByProvider name) ↔
      Available providers apiList modelsList name other := by
  rw [Available]
  split
  · exact Iff.rfl
  · exact mem_modelsByProvider distinct

theorem available_routed (distinct : (providers.map Provider.name).Nodup)
    {name : PyText} (noSlash : slash ∉ name) (available : Available providers apiList modelsList name model) :
    (providerOfItem providers model apiList (providerRule name model)).isSome := by
  rw [Available] at available
  split at available
  · rename_i nested
    refine providerOfItem_nested ?_
    rwa [(beforeSlash_providerRule noSlash model).1]
  · obtain ⟨named, isModel⟩ := available
    obtain ⟨provider, isProvider, rfl, offered⟩ := mem_modelsOfName.mp isModel
    exact providerOfItem_offered distinct isProvider named offered noSlash

theorem opensTo_closed (closed : isOpen model = false) (other : PyText) : opensTo model other = false := by
  rw [opensTo, closed, Bool.false_and]

theorem not_mem_beforeSlash (text : PyText) : slash ∉ beforeSlash text := by
  intro isThere
  have other := List.mem_takeWhile_imp isThere
  simp at other

/-- The texts of a rule `provider/model`. -/
theorem part_routed (distinct : (providers.map Provider.name).Nodup) (closed : isOpen model = false)
    {name part : PyText} (noSlash : slash ∉ name) (available : List PyText)
    (isAvailable : ∀ other, other ∈ available ↔ Available providers apiList modelsList name other) :
    (∃ item ∈ (if part = [star] then
        (if available.contains model then [providerRule name model] else []) ++
          (available.filter (opensTo model ·)).map (providerRule name)
      else if (part = model ∨ opensTo model part = true) ∧ available.contains part then
        [providerRule name part]
      else []), (providerOfItem providers model apiList item).isSome) ↔
      (part = [star] ∨ part = model) ∧ Available providers apiList modelsList name model := by
  have none : available.filter (opensTo model ·) = [] := by
    rw [List.filter_eq_nil_iff]
    intro other _
    rw [opensTo_closed closed]
    exact Bool.false_ne_true
  have one : (∃ item ∈ (if available.contains model then [providerRule name model] else []),
      (providerOfItem providers model apiList item).isSome) ↔
      Available providers apiList modelsList name model := by
    rw [← isAvailable, ← List.contains_iff_mem]
    split
    · rename_i there
      have found := (isAvailable model).mp (List.contains_iff_mem.mp there)
      exact iff_of_true ⟨_, List.mem_singleton_self _, available_routed distinct noSlash found⟩ there
    · exact iff_of_false (by simp) ‹_›
  split
  · rename_i isStar
    rw [none, List.map_nil, List.append_nil, one, and_iff_right (Or.inl isStar)]
  · rename_i isModel
    simp only [opensTo_closed closed, Bool.false_eq_true, or_false]
    rw [or_iff_right isModel]
    by_cases same : part = model
    · subst same
      simpa only [true_and] using one
    · simp only [same, false_and, if_false, List.not_mem_nil, exists_false]

/-- **Which rules route a model.** -/
theorem rule_routes (distinct : (providers.map Provider.name).Nodup) (closed : isOpen model = false)
    (rule : PyText) :
    (∃ item ∈ getProviderRules providers model apiList modelsList rule,
      (providerOfItem providers model apiList item).isSome) ↔
      RoutesRule providers apiList modelsList rule model := by
  have offers : _ ↔ RoutableOffer providers apiList model := offers_routed distinct closed
  rw [getProviderRules, RoutesRule]
  dsimp only
  split
  · rw [closed, if_neg Bool.false_ne_true]
    exact offers
  split
  · split
    · simp only [opensTo_closed closed, Bool.false_eq_true, or_false]
      split
      · rename_i same
        rw [same, and_iff_right rfl]
        exact offers
      · rename_i differ
        exact iff_of_false (by simp) fun routes => differ routes.1
    · exact part_routed distinct closed (not_mem_beforeSlash rule) _ fun _ => mem_available distinct
  · simp only [opensTo_closed closed, Bool.false_eq_true, or_false]
    split
    · rename_i same
      rw [same, and_iff_right rfl]
      exact offers
    · rename_i differ
      exact iff_of_false (by simp) fun routes => differ routes.1

/-- **Which rules of a key route a model.** -/
theorem routes_iff (distinct : (providers.map Provider.name).Nodup) (closed : isOpen model = false)
    (rules : List PyText) :
    getMatchingProviders providers model apiList modelsList rules ≠ [] ↔
      ∃ rule ∈ rules, RoutesRule providers apiList modelsList rule model := by
  rw [getMatchingProviders, getProviderList, ne_eq, List.filterMap_eq_nil_iff]
  push Not
  constructor
  · rintro ⟨item, isItem, found⟩
    obtain ⟨rule, isRule, isItem⟩ := List.mem_flatMap.mp isItem
    exact ⟨rule, isRule, (rule_routes distinct closed rule).mp
      ⟨item, isItem, Option.isSome_iff_ne_none.mpr found⟩⟩
  · rintro ⟨rule, isRule, routes⟩
    obtain ⟨item, isItem, found⟩ := (rule_routes distinct closed rule).mpr routes
    exact ⟨item, List.mem_flatMap.mpr ⟨rule, isRule, isItem⟩, Option.isSome_iff_ne_none.mp found⟩

end Routes

/-! ### The dict that was built -/

section Built

variable {providers : List Provider} {keys : List ApiKey}

/-- The rules that are a bare name name a model that is offered. -/
def BareOffered (providers : List Provider) (keys : List ApiKey) : Prop :=
  ∀ key ∈ keys, ∀ rule ∈ key.rules, rule ≠ Utf8.points "all" → rule.contains slash = false →
    isNestedKey (apiListOf keys) rule = false → Offered providers rule

/-- The lists have models that are offered. -/
def Within (providers : List Provider) (resolved : Resolved) : Prop :=
  ∀ api, ∀ model ∈ setsOf resolved api, Offered providers model

theorem offered_of_mem (isModel : model ∈ modelsOfName providers name) :
    Offered providers model := by
  obtain ⟨provider, isProvider, _, offered⟩ := mem_modelsOfName.mp isModel
  exact ⟨provider, isProvider, offered⟩

theorem offered_of_listsRule (bare : BareOffered providers keys)
    (within : Within providers resolved) {key : ApiKey} (isKey : key ∈ keys) {rule model : PyText}
    (isRule : rule ∈ key.rules)
    (lists : ListsRule providers (apiListOf keys) (setsOf resolved) rule model) : Offered providers model := by
  rw [ListsRule] at lists
  split at lists
  · exact lists
  · rename_i single
    split at lists
    · have last := lists.2
      split at last
      · exact within _ model last
      · exact offered_of_mem last
    · rename_i unslashed
      rw [← lists.2]
      exact bare key isKey rule isRule single (Bool.eq_false_iff.mpr unslashed) lists.1

/-- **The list of a key** has what one of its rules gives. -/
theorem lists_iff (bare : BareOffered providers keys)
    (within : Within providers resolved) {key : ApiKey} (isKey : key ∈ keys) {model : PyText} :
    Lists providers (apiListOf keys) (setsOf resolved) key.rules model ↔
      ∃ rule ∈ key.rules, ListsRule providers (apiListOf keys) (setsOf resolved) rule model := by
  rw [Lists]
  split
  · rename_i everything
    refine ⟨fun offered => ⟨_, everything, ?_⟩, ?_⟩
    · rw [ListsRule, if_pos rfl]
      exact offered
    · rintro ⟨rule, isRule, lists⟩
      exact offered_of_listsRule bare within isKey isRule lists
  · exact Iff.rfl

/-- What resolutions leave that have not raised. -/
structure Grows (providers : List Provider) (keys : List ApiKey) (names : List PyText)
    (resolved after : Resolved) : Prop where
  longer : Extends resolved after
  there : ∀ name ∈ names, name ∈ apiListOf keys → (after name).isSome
  within : Within providers resolved → Within providers after

theorem foldlM_grows {call : Resolved → PyText → Except Unresolved Resolved}
    (each : ∀ name resolved after, call resolved name = .ok after → Grows providers keys [name] resolved after)
    {names : List PyText} {resolved after : Resolved} (ran : names.foldlM call resolved = .ok after) :
    Grows providers keys names resolved after := by
  induction names generalizing resolved with
  | nil =>
    obtain rfl : resolved = after := by simpa [pure, Except.pure] using ran
    exact ⟨fun _ => id, by simp, id⟩
  | cons name rest ih =>
    rw [List.foldlM_cons] at ran
    rcases first : call resolved name with error | middle
    · rw [first] at ran
      exact absurd ran (by simp [bind, Except.bind])
    · rw [first] at ran
      have once := each name resolved middle first
      have later := ih ran
      refine ⟨fun api known => later.longer api (once.longer api known), ?_, later.within ∘ once.within⟩
      intro other isOther isKey
      rcases List.mem_cons.mp isOther with rfl | isOther
      · exact later.longer other (once.there other (List.mem_singleton_self other) isKey)
      · exact later.there other isOther isKey

theorem within_update {api : PyText} {models : List PyText}
    (within : Within providers resolved) (offered : ∀ model ∈ models, Offered providers model) :
    Within providers (Function.update resolved api (some models)) := by
  rintro other model ⟨listed, found, isListed⟩
  by_cases same : other = api
  · subst same
    rw [Function.update_self, Option.some.injEq] at found
    exact offered model (found ▸ isListed)
  · rw [Function.update_of_ne same] at found
    exact within other model ⟨listed, found, isListed⟩

theorem resolve_grows (bare : BareOffered providers keys) {fuel : Nat} {visiting : List PyText}
    {api : PyText} {resolved after : Resolved}
    (ran : resolve providers keys fuel visiting resolved api = .ok after) :
    Grows providers keys [api] resolved after := by
  induction fuel generalizing visiting api resolved after with
  | zero => exact absurd ran (by simp [resolve])
  | succ fuel ih =>
    rw [resolve] at ran
    split at ran
    · rename_i known
      obtain rfl : resolved = after := by simpa using ran
      exact ⟨fun _ => id, by simpa using fun _ => known, id⟩
    split at ran
    · obtain rfl : Function.update resolved api (some []) = after := by simpa using ran
      exact ⟨extends_update, by simp, fun within => within_update within (by simp)⟩
    split at ran
    · rename_i missing
      obtain rfl : resolved = after := by simpa using ran
      refine ⟨fun _ => id, fun name isName isKey => ?_, id⟩
      rw [List.mem_singleton.mp isName] at isKey
      obtain ⟨rules, isRules⟩ := rulesOf_isSome isKey
      exact absurd (missing.symm.trans isRules) (by simp)
    · rename_i rules isRules
      rcases folded : (references (apiListOf keys) api rules).foldlM
          (resolve providers keys fuel (api :: visiting)) resolved with error | middle
      · rw [folded] at ran
        exact absurd ran (by simp [Except.bind])
      · rw [folded] at ran
        simp only [Except.bind] at ran
        split at ran
        · exact absurd ran (by simp)
        · rename_i models listed
          obtain rfl : Function.update middle api (some models) = after := by simpa using ran
          have grows := foldlM_grows (fun _ _ _ ran => ih ran) folded
          refine ⟨fun other known => extends_update other (grows.longer other known), by simp,
            fun within => within_update (grows.within within) fun model isModel => ?_⟩
          have lists := (mem_postAllModels listed model).mp isModel
          have isKey := mem_of_rulesOf isRules
          obtain ⟨rule, isRule, lists⟩ := (lists_iff bare (grows.within within) isKey).mp lists
          exact offered_of_listsRule bare (grows.within within) isKey isRule lists

theorem build_grows (bare : BareOffered providers keys)
    (built : buildApiKeyModelsMap providers keys = .ok resolved) :
    (∀ api ∈ apiListOf keys, (resolved api).isSome) ∧ Within providers resolved := by
  have grows := foldlM_grows (fun _ _ _ ran => resolve_grows bare ran) built
  refine ⟨fun api isKey => grows.there api isKey isKey, grows.within ?_⟩
  rintro api model ⟨listed, found, _⟩
  exact absurd found.symm (Option.some_ne_none _)

end Built

/-! ### Rules that are read in two ways -/

section Readings

variable (providers : List Provider) (apiList : List PyText) (modelsList : PyText → List PyText)

/-- A rule with a slash that both read alike: one slash, no angle brackets, and a provider. -/
def ReadAlike (rule : PyText) : Prop :=
  isBracketed rule = false ∧ slash ∉ afterSlash rule ∧ beforeSlash rule ≠ []

/-- The model is given by a rule that both read alike. -/
def GivenByBoth (rule model : PyText) : Prop :=
  if rule = Utf8.points "all" then RoutableOffer providers apiList model
  else if rule.contains slash then
    ReadAlike rule ∧ (afterSlash rule = [star] ∨ afterSlash rule = model) ∧
      Available providers apiList modelsList (beforeSlash rule) model
  else isNestedKey apiList rule = false ∧ rule = model ∧ RoutableOffer providers apiList model

/-- Only the listing reads it so: between two slashes, in angle brackets or without a provider; or all
providers of the model have a slash in their name. -/
def ListedAlone (rule model : PyText) : Prop :=
  if rule = Utf8.points "all" then Offered providers model ∧ ¬ RoutableOffer providers apiList model
  else if rule.contains slash then
    ¬ ReadAlike rule ∧ (secondPart rule = [star] ∨ secondPart rule = model) ∧
      if isNestedKey apiList (beforeSlash rule) then model ∈ modelsList (beforeSlash rule)
      else model ∈ modelsOfName providers (beforeSlash rule)
  else isNestedKey apiList rule = false ∧ rule = model ∧ ¬ RoutableOffer providers apiList model

/-- Only the router reads it so: all that follows the first slash, or what stands in angle brackets; or a
model has the name of an API key. -/
def RoutedAlone (rule model : PyText) : Prop :=
  if rule = Utf8.points "all" then False
  else if rule.contains slash then
    ¬ ReadAlike rule ∧
      if isBracketed rule then unbracketed rule = model ∧ RoutableOffer providers apiList model
      else (afterSlash rule = [star] ∨ afterSlash rule = model) ∧
        Available providers apiList modelsList (beforeSlash rule) model
  else isNestedKey apiList rule = true ∧ rule = model ∧ RoutableOffer providers apiList model

end Readings

section Readings

variable {providers : List Provider} {apiList : List PyText} {resolved : Resolved}

/-- `models_list.get(name, [])`. -/
def modelsListOf (resolved : Resolved) (name : PyText) : List PyText := (resolved name).getD []

theorem mem_setsOf :
    model ∈ setsOf resolved name ↔ model ∈ modelsListOf resolved name := by
  rcases found : resolved name with _ | listed
  · simp [setsOf, modelsListOf, found]
  · simp [setsOf, modelsListOf, found]

theorem secondPart_of_readAlike {rule : PyText} (alike : ReadAlike rule) :
    secondPart rule = afterSlash rule := by
  rw [secondPart, beforeSlash, List.takeWhile_eq_self_iff]
  intro point isPoint
  exact bne_iff_ne.mpr fun isSlash => alike.2.1 (isSlash ▸ isPoint)

/-- **What the listing reads.** -/
theorem listsRule_iff {rule model : PyText} :
    ListsRule providers apiList (setsOf resolved) rule model ↔
      GivenByBoth providers apiList (modelsListOf resolved) rule model ∨
        ListedAlone providers apiList (modelsListOf resolved) rule model := by
  rw [ListsRule, GivenByBoth, ListedAlone]
  split
  · constructor
    · intro offered
      by_cases routable : RoutableOffer providers apiList model
      · exact Or.inl routable
      · exact Or.inr ⟨offered, routable⟩
    · rintro (⟨provider, isProvider, ⟨_, offered⟩, _⟩ | ⟨offered, _⟩)
      · exact ⟨provider, isProvider, offered⟩
      · exact offered
  split
  · simp only [mem_setsOf]
    by_cases alike : ReadAlike rule
    · rw [secondPart_of_readAlike alike, Available]
      simp only [alike, not_true_eq_false, false_and, or_false, true_and, alike.2.2, ne_eq,
        not_false_eq_true]
    · simp only [alike, false_and, not_false_eq_true, true_and, false_or]
  · tauto

/-- **What the router reads.** -/
theorem routesRule_iff {rule model : PyText} :
    RoutesRule providers apiList (modelsListOf resolved) rule model ↔
      GivenByBoth providers apiList (modelsListOf resolved) rule model ∨
        RoutedAlone providers apiList (modelsListOf resolved) rule model := by
  rw [RoutesRule, GivenByBoth, RoutedAlone]
  split
  · rw [or_false]
  split
  · by_cases alike : ReadAlike rule
    · simp only [alike, alike.1, Bool.false_eq_true, if_false, true_and, not_true_eq_false, false_and,
        or_false]
    · simp only [alike, false_and, not_false_eq_true, true_and, false_or]
  · rcases isNestedKey apiList rule with _ | _ <;> simp

end Readings

/-- **Exactly when the listing and the router agree.** A model is listed for a key if and only if it is
routed, exactly when a rule of the key that both read alike gives it, or rules that only the listing reads
so and rules that only the router reads so both give it, or neither do. -/
theorem advertised_iff_routed_iff {providers : List Provider} {keys : List ApiKey} {resolved : Resolved}
    (distinct : (providers.map Provider.name).Nodup) (bare : BareOffered providers keys)
    (built : buildApiKeyModelsMap providers keys = .ok resolved) {key : ApiKey} (isKey : key ∈ keys)
    {model : PyText} (closed : isOpen model = false) :
    ∃ listed, postAllModels providers (apiListOf keys) resolved key.rules = some listed ∧
      ((model ∈ listed ↔ getMatchingProviders providers model (apiListOf keys) (modelsListOf resolved)
          key.rules ≠ []) ↔
        (∃ rule ∈ key.rules, GivenByBoth providers (apiListOf keys) (modelsListOf resolved) rule model) ∨
          ((∃ rule ∈ key.rules,
              ListedAlone providers (apiListOf keys) (modelsListOf resolved) rule model) ↔
            ∃ rule ∈ key.rules,
              RoutedAlone providers (apiListOf keys) (modelsListOf resolved) rule model)) := by
  obtain ⟨there, within⟩ := build_grows bare built
  have isList : (postAllModels providers (apiListOf keys) resolved key.rules).isSome :=
    postAllModels_some (fun rule _ _ nested => there _ (mem_apiList_of_nested nested)) []
  obtain ⟨listed, ran⟩ := Option.isSome_iff_exists.mp isList
  refine ⟨listed, ran, ?_⟩
  rw [mem_postAllModels ran, lists_iff bare within isKey, routes_iff distinct closed]
  simp only [listsRule_iff, routesRule_iff, and_or_left, exists_or]
  by_cases given : ∃ rule ∈ key.rules,
      GivenByBoth providers (apiListOf keys) (modelsListOf resolved) rule model
  · simp only [given, true_or]
  · simp only [given, false_or]

/-- A key with one rule, for the one model of a provider. -/
def oneRule (rule : PyText) : List ApiKey := [⟨Utf8.points "sk-1", [rule]⟩]

/-- A provider with one model. -/
def oneModel (model : PyText) : Provider where
  name := Utf8.points "p"
  modelDictCache := none
  modelDict := ⟨[model], List.nodup_singleton _⟩
  preferences := none
  maxRequestBodyBytes := .null
  excludeEndpoints := .null

theorem advertised_iff_routed_iff_plain :
    ∃ resolved, buildApiKeyModelsMap [oneModel (Utf8.points "a")] (oneRule (Utf8.points "p/*")) =
      .ok resolved ∧ ∃ listed, postAllModels [oneModel (Utf8.points "a")]
        (apiListOf (oneRule (Utf8.points "p/*"))) resolved [Utf8.points "p/*"] = some listed ∧
          (Utf8.points "a" ∈ listed ↔ getMatchingProviders [oneModel (Utf8.points "a")] (Utf8.points "a")
            (apiListOf (oneRule (Utf8.points "p/*"))) (modelsListOf resolved) [Utf8.points "p/*"] ≠ []) := by
  have bare : BareOffered [oneModel (Utf8.points "a")] (oneRule (Utf8.points "p/*")) := by
    intro key isKey rule isRule _ unslashed
    rw [List.mem_singleton.mp isKey] at isRule
    rw [List.mem_singleton.mp isRule] at unslashed
    exact absurd unslashed (by decide)
  have closed : isOpen (Utf8.points "a") = false := by decide
  obtain ⟨listed, ran, agree⟩ := advertised_iff_routed_iff (by decide) bare rfl
    (List.mem_singleton_self _) closed
  refine ⟨_, rfl, listed, ran, agree.mpr (Or.inl ⟨_, List.mem_singleton_self _, ?_⟩)⟩
  rw [GivenByBoth, if_neg (by decide), if_pos (by decide), Available,
    if_neg (by decide)]
  refine ⟨⟨?_, ?_, ?_⟩, Or.inl ?_, ?_, ?_⟩ <;> decide

/-- A model with a slash in its name is routed by its rule, and not listed. -/
theorem slashed_not_advertised :
    ¬ ∀ (providers : List Provider) (keys : List ApiKey) (resolved : Resolved),
      (providers.map Provider.name).Nodup → BareOffered providers keys →
        buildApiKeyModelsMap providers keys = .ok resolved → ∀ key ∈ keys, ∀ model, isOpen model = false →
          ∃ listed, postAllModels providers (apiListOf keys) resolved key.rules = some listed ∧
            (model ∈ listed ↔ getMatchingProviders providers model (apiListOf keys)
              (modelsListOf resolved) key.rules ≠ []) := by
  intro agree
  have bare : BareOffered [oneModel (Utf8.points "a/b")] (oneRule (Utf8.points "p/a/b")) := by
    intro key isKey rule isRule _ unslashed
    rw [List.mem_singleton.mp isKey] at isRule
    rw [List.mem_singleton.mp isRule] at unslashed
    exact absurd unslashed (by decide)
  obtain ⟨listed, ran, same⟩ := agree [oneModel (Utf8.points "a/b")] (oneRule (Utf8.points "p/a/b")) _
    (by decide) bare rfl ⟨Utf8.points "sk-1", [Utf8.points "p/a/b"]⟩ (List.mem_singleton_self _)
    (Utf8.points "a/b") (by decide)
  have missing : listed = [] := Option.some_injective _ (ran.symm.trans (by decide))
  rw [missing] at same
  refine List.not_mem_nil (same.mpr fun none => ?_)
  have empty := congrArg List.isEmpty none
  revert empty
  decide

end UniApi.Routing
