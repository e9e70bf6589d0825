/-
**API keys that name other API keys: `build_api_key_models_map`.**

The models of a key are resolved after those of the keys that its rules name. A key that is met again
while it is being resolved gets an empty list for the time being.

* `resolve_spec`: what one resolution leaves in the dict;
* `buildApiKeyModelsMap_least`: every key gets models of its least set, and all of them if no cycle of
  references can be reached from it.
-/

import Mathlib.Data.List.Perm.Subperm
import Mathlib.Logic.Relation
import UniApi.Routing.ModelList

namespace UniApi.Routing

open UniApi.Lib UniApi.Front

/-! ### Resolving -/

/-- An API key of the configuration. -/
structure ApiKey where
  api : PyText
  rules : List PyText
  deriving DecidableEq

/-- `api_list`. -/
def apiListOf (keys : List ApiKey) : List PyText := keys.map ApiKey.api

/-- The rules at `api_key_to_index`, of the last key of a name. -/
def rulesOf (keys : List ApiKey) (api : PyText) : Option (List PyText) :=
  (keys.reverse.find? (·.api == api)).map ApiKey.rules

/-- The key that a rule may name. -/
def namedBy (rule : PyText) : PyText := if rule.contains slash then beforeSlash rule else rule

/-- The keys that the rules of a key name, but for itself. -/
def references (apiList : List PyText) (api : PyText) (rules : List PyText) : List PyText :=
  (rules.map namedBy).filter fun name => isNestedKey apiList name && name != api

/-- What a resolution raises; the model runs out of fuel where the source would not return. -/
inductive Unresolved where
  | keyError
  | outOfFuel
  deriving DecidableEq

/-- `resolved`. -/
abbrev Resolved := PyText → Option (List PyText)

section Resolve

variable (providers : List Provider) (keys : List ApiKey)

/-- `resolve`. -/
def resolve : Nat → List PyText → Resolved → PyText → Except Unresolved Resolved
  | 0, _, _, _ => .error .outOfFuel
  | fuel + 1, visiting, resolved, api =>
    if (resolved api).isSome then .ok resolved
    else if visiting.contains api then .ok (Function.update resolved api (some []))
    else
      match rulesOf keys api with
      | none => .ok resolved
      | some rules =>
        ((references (apiListOf keys) api rules).foldlM (resolve fuel (api :: visiting)) resolved).bind
          fun resolved =>
            match postAllModels providers (apiListOf keys) resolved rules with
            | none => .error .keyError
            | some models => .ok (Function.update resolved api (some models))

/-- `build_api_key_models_map`. -/
def buildApiKeyModelsMap : Except Unresolved Resolved :=
  (apiListOf keys).foldlM (resolve providers keys (keys.length + 1) []) fun _ => none

/-! ### Least sets -/

/-- The lists of all keys, where the keys that they name have the sets. -/
def equations : (PyText → Set PyText) →o (PyText → Set PyText) where
  toFun sets api := {model | ∃ rules, rulesOf keys api = some rules ∧
    Lists providers (apiListOf keys) sets rules model}
  monotone' := by
    rintro sets more longer api model ⟨rules, isRules, lists⟩
    exact ⟨rules, isRules, lists_mono (fun rule _ _ _ => longer (beforeSlash rule)) lists⟩

/-- **The least sets** that solve the equations. -/
noncomputable def leastModels : PyText → Set PyText := OrderHom.lfp (equations providers keys)

/-- The rules of a key name another key. -/
def Refers (api name : PyText) : Prop :=
  ∃ rules, rulesOf keys api = some rules ∧ name ∈ references (apiListOf keys) api rules

/-- No cycle of references can be reached from a key. -/
def Grounded (api : PyText) : Prop := Acc (fun name api => Refers keys api name) api

/-- A key's rules name it before a slash. -/
def NamesItself (api : PyText) (rules : List PyText) : Prop :=
  ∃ rule ∈ rules, rule.contains slash = true ∧ beforeSlash rule = api ∧
    isNestedKey (apiListOf keys) api = true

instance {api : PyText} {rules : List PyText} : Decidable (NamesItself keys api rules) :=
  inferInstanceAs (Decidable (∃ rule ∈ rules, rule.contains slash = true ∧ beforeSlash rule = api ∧
    isNestedKey (apiListOf keys) api = true))

end Resolve

section Spec

variable {providers : List Provider} {keys : List ApiKey}

/-- The key below is named by the rules of the key above. -/
abbrev Below (keys : List ApiKey) (name api : PyText) : Prop := Refers keys api name

theorem mem_leastModels {api model : PyText} :
    model ∈ leastModels providers keys api ↔
      ∃ rules, rulesOf keys api = some rules ∧
        Lists providers (apiListOf keys) (leastModels providers keys) rules model := by
  have fixed : equations providers keys (leastModels providers keys) = leastModels providers keys :=
    OrderHom.map_lfp (equations providers keys)
  conv_lhs => rw [← fixed]
  exact Iff.rfl

variable {api : PyText} {resolved : Resolved}

/-- A key that is met again while it is being resolved is on a cycle. -/
theorem not_grounded_of_cycle (cycle : Relation.TransGen (Below keys) api api) :
    ¬ Grounded keys api := by
  intro grounded
  have below := Acc.transGen grounded
  clear grounded
  induction below with
  | intro api _ ih => exact ih api cycle cycle

theorem rulesOf_isSome (isKey : api ∈ apiListOf keys) :
    ∃ rules, rulesOf keys api = some rules := by
  obtain ⟨key, isThere, rfl⟩ := List.mem_map.mp isKey
  rcases found : keys.reverse.find? (·.api == key.api) with _ | other
  · rw [List.find?_eq_none] at found
    exact absurd (found key (List.mem_reverse.mpr isThere)) (by simp)
  · exact ⟨other.rules, by rw [rulesOf, found]; rfl⟩

theorem mem_of_rulesOf {rules : List PyText} (isRules : rulesOf keys api = some rules) :
    ApiKey.mk api rules ∈ keys := by
  rw [rulesOf, Option.map_eq_some_iff] at isRules
  obtain ⟨key, found, rfl⟩ := isRules
  have isApi : key.api = api := by simpa using List.find?_some found
  rw [← isApi]
  exact List.mem_reverse.mp (List.mem_of_find?_eq_some found)

theorem mem_references {apiList rules : List PyText} {api name : PyText} :
    name ∈ references apiList api rules ↔
      (∃ rule ∈ rules, namedBy rule = name) ∧ isNestedKey apiList name = true ∧ name ≠ api := by
  simp [references]

/-- What a resolution may leave: models of the least sets, and all of them for a grounded key. -/
structure Sound (providers : List Provider) (keys : List ApiKey) (resolved : Resolved) : Prop where
  within : ∀ api, setsOf resolved api ⊆ leastModels providers keys api
  complete : ∀ api models, resolved api = some models → Grounded keys api →
    leastModels providers keys api ⊆ {model | model ∈ models}

/-- The keys stay that are there. -/
def Extends (resolved after : Resolved) : Prop :=
  ∀ api, (resolved api).isSome → (after api).isSome

theorem Sound.update {models : List PyText} (sound : Sound providers keys resolved)
    (within : ∀ model ∈ models, model ∈ leastModels providers keys api)
    (complete : Grounded keys api → leastModels providers keys api ⊆ {model | model ∈ models}) :
    Sound providers keys (Function.update resolved api (some models)) where
  within other := by
    by_cases same : other = api
    · subst same
      rintro model ⟨listed, found, isListed⟩
      rw [Function.update_self, Option.some.injEq] at found
      exact within model (found ▸ isListed)
    · rintro model ⟨listed, found, isListed⟩
      rw [Function.update_of_ne same] at found
      exact sound.within other ⟨listed, found, isListed⟩
  complete other listed found := by
    by_cases same : other = api
    · subst same
      rw [Function.update_self, Option.some.injEq] at found
      exact found ▸ complete
    · rw [Function.update_of_ne same] at found
      exact sound.complete other listed found

theorem extends_update {models : List PyText} :
    Extends resolved (Function.update resolved api (some models)) := by
  intro other known
  by_cases same : other = api
  · rw [same, Function.update_self]
    rfl
  · rwa [Function.update_of_ne same]

/-- The list of a key, from the lists of the keys that it names. -/
theorem models_sound {rules models : List PyText}
    (sound : Sound providers keys resolved) (isRules : rulesOf keys api = some rules)
    (apart : ¬ NamesItself keys api rules)
    (named : ∀ name ∈ references (apiListOf keys) api rules, (resolved name).isSome)
    (ran : postAllModels providers (apiListOf keys) resolved rules = some models) :
    (∀ model ∈ models, model ∈ leastModels providers keys api) ∧
      (Grounded keys api → leastModels providers keys api ⊆ {model | model ∈ models}) := by
  constructor
  · intro model isModel
    refine mem_leastModels.mpr ⟨rules, isRules, ?_⟩
    exact lists_mono (fun _ _ _ _ => sound.within _) ((mem_postAllModels ran model).mp isModel)
  · intro grounded model isLeast
    obtain ⟨_, same, lists⟩ := mem_leastModels.mp isLeast
    obtain rfl := Option.some_injective _ (isRules.symm.trans same)
    refine (mem_postAllModels ran model).mpr (lists_mono (fun rule isRule slashed nested => ?_) lists)
    have isReference : beforeSlash rule ∈ references (apiListOf keys) api rules := by
      refine mem_references.mpr ⟨⟨rule, isRule, if_pos slashed⟩, nested, fun same => ?_⟩
      exact apart ⟨rule, isRule, slashed, same, same ▸ nested⟩
    obtain ⟨listed, found⟩ := Option.isSome_iff_exists.mp (named _ isReference)
    intro other isOther
    exact ⟨listed, found, sound.complete _ listed found (grounded.inv ⟨rules, isRules, isReference⟩) isOther⟩

/-- What a resolution leaves. -/
def Resolves (providers : List Provider) (keys : List ApiKey) (resolved : Resolved) (api : PyText)
    (outcome : Except Unresolved Resolved) : Prop :=
  ∃ after, outcome = .ok after ∧ Sound providers keys after ∧ Extends resolved after ∧ (after api).isSome

/-- Keys that are resolved one after the other. -/
theorem foldlM_resolves {call : Resolved → PyText → Except Unresolved Resolved} {names : List PyText}
    (each : ∀ name ∈ names, ∀ resolved, Sound providers keys resolved →
      Resolves providers keys resolved name (call resolved name))
    (sound : Sound providers keys resolved) :
    ∃ after, names.foldlM call resolved = .ok after ∧ Sound providers keys after ∧
      Extends resolved after ∧ ∀ name ∈ names, (after name).isSome := by
  induction names generalizing resolved with
  | nil => exact ⟨resolved, rfl, sound, fun _ => id, by simp⟩
  | cons name rest ih =>
    obtain ⟨middle, ran, sound, longer, there⟩ := each name List.mem_cons_self resolved sound
    obtain ⟨after, later, sound, longest, others⟩ :=
      ih (fun other isOther => each other (List.mem_cons_of_mem _ isOther)) sound
    refine ⟨after, ?_, sound, fun api known => longest api (longer api known), ?_⟩
    · rw [List.foldlM_cons, ran]
      exact later
    · intro other isOther
      rcases List.mem_cons.mp isOther with rfl | isOther
      · exact longest other there
      · exact others other isOther

theorem mem_apiList_of_nested {apiList : List PyText} {name : PyText}
    (nested : isNestedKey apiList name = true) : name ∈ apiList := by
  rw [isNestedKey, Bool.and_eq_true] at nested
  exact List.contains_iff_mem.mp nested.2

/-- **One resolution.** The keys that are being resolved lead to this one, and each is met but once, so
that the fuel lasts. -/
theorem resolve_spec (apart : ∀ key ∈ keys, ¬ NamesItself keys key.api key.rules)
    {fuel : Nat} {visiting : List PyText} (enough : keys.length + 1 ≤ fuel + visiting.length)
    (distinct : visiting.Nodup) (known : visiting ⊆ apiListOf keys)
    (isKey : api ∈ apiListOf keys)
    (above : ∀ other ∈ visiting, Relation.TransGen (Below keys) api other)
    (sound : Sound providers keys resolved) :
    Resolves providers keys resolved api (resolve providers keys fuel visiting resolved api) := by
  induction fuel generalizing visiting api resolved with
  | zero =>
    have few : visiting.length ≤ (apiListOf keys).length := (distinct.subperm known).length_le
    rw [apiListOf, List.length_map] at few
    omega
  | succ fuel ih =>
    rw [resolve]
    split
    · exact ⟨resolved, rfl, sound, fun _ => id, ‹_›⟩
    split
    · rename_i again
      have cycle := above api (List.contains_iff_mem.mp again)
      refine ⟨_, rfl, sound.update (by simp) fun grounded => ?_, extends_update, by simp⟩
      exact absurd grounded (not_grounded_of_cycle cycle)
    rename_i first
    obtain ⟨rules, isRules⟩ := rulesOf_isSome isKey
    rw [isRules]
    dsimp only
    have new : api ∉ visiting := fun old => first (List.contains_iff_mem.mpr old)
    have each : ∀ name ∈ references (apiListOf keys) api rules, ∀ resolved,
        Sound providers keys resolved → Resolves providers keys resolved name
          (resolve providers keys fuel (api :: visiting) resolved name) := by
      intro name isName resolved sound
      have below : Below keys name api := ⟨rules, isRules, isName⟩
      refine ih (by rw [List.length_cons]; omega) (List.nodup_cons.mpr ⟨new, distinct⟩)
        (List.cons_subset.mpr ⟨isKey, known⟩) (mem_apiList_of_nested (mem_references.mp isName).2.1)
        (fun other isOther => ?_) sound
      rcases List.mem_cons.mp isOther with rfl | isOther
      · exact Relation.TransGen.single below
      · exact Relation.TransGen.head below (above other isOther)
    obtain ⟨after, ran, sound, longer, named⟩ := foldlM_resolves each sound
    rw [ran]
    have listed : (postAllModels providers (apiListOf keys) after rules).isSome := by
      refine postAllModels_some (fun rule isRule slashed nested => named _ ?_) []
      refine mem_references.mpr ⟨⟨rule, isRule, if_pos slashed⟩, nested, fun same => ?_⟩
      exact apart _ (mem_of_rulesOf isRules) ⟨rule, isRule, slashed, same, same ▸ nested⟩
    obtain ⟨models, listed⟩ := Option.isSome_iff_exists.mp listed
    obtain ⟨within, complete⟩ := models_sound sound isRules (apart _ (mem_of_rulesOf isRules)) named listed
    refine ⟨Function.update after api (some models), ?_, sound.update within complete, ?_, by simp⟩
    · simp only [Except.bind, listed]
    · exact fun other there => extends_update other (longer other there)

end Spec

/-! ### The dict of all keys -/

section Build

variable {providers : List Provider} {keys : List ApiKey}

/-- **All keys are resolved.** -/
theorem build_sound (providers : List Provider) (apart : ∀ key ∈ keys, ¬ NamesItself keys key.api key.rules) :
    ∃ resolved, buildApiKeyModelsMap providers keys = .ok resolved ∧ Sound providers keys resolved ∧
      ∀ api ∈ apiListOf keys, (resolved api).isSome := by
  have start : Sound providers keys fun _ => none := by
    refine ⟨fun api => ?_, fun api models found => absurd found.symm (Option.some_ne_none _)⟩
    rintro model ⟨listed, found, _⟩
    exact absurd found.symm (Option.some_ne_none _)
  have each : ∀ api ∈ apiListOf keys, ∀ resolved, Sound providers keys resolved →
      Resolves providers keys resolved api (resolve providers keys (keys.length + 1) [] resolved api) :=
    fun api isKey resolved sound => resolve_spec apart (Nat.le_refl _) List.nodup_nil
      (List.nil_subset _) isKey (by simp) sound
  obtain ⟨resolved, ran, sound, _, there⟩ := foldlM_resolves each start
  exact ⟨resolved, ran, sound, there⟩

theorem rulesOf_eq_some (distinct : (apiListOf keys).Nodup) {api : PyText} {rules : List PyText} :
    rulesOf keys api = some rules ↔ ApiKey.mk api rules ∈ keys := by
  refine ⟨mem_of_rulesOf, fun isKey => ?_⟩
  have reversed : (keys.reverse.map ApiKey.api).Nodup := by
    rwa [List.map_reverse, List.nodup_reverse]
  have found : keys.reverse.find? (·.api == api) = some ⟨api, rules⟩ :=
    (find?_key_eq_some reversed).mpr ⟨List.mem_reverse.mpr isKey, rfl⟩
  rw [rulesOf, found]
  rfl

/-- The order of the keys does not matter to what their rules say. -/
theorem rulesOf_perm {others : List ApiKey} (same : keys.Perm others) (distinct : (apiListOf keys).Nodup) :
    rulesOf others = rulesOf keys := by
  have distinct' : (apiListOf others).Nodup := (same.map ApiKey.api).nodup_iff.mp distinct
  funext api
  ext rules
  rw [rulesOf_eq_some distinct, rulesOf_eq_some distinct', same.mem_iff]

theorem isNestedKey_perm {others : List ApiKey} (same : keys.Perm others) :
    isNestedKey (apiListOf others) = isNestedKey (apiListOf keys) := by
  funext name
  have known : (apiListOf others).contains name = (apiListOf keys).contains name := by
    rw [Bool.eq_iff_iff, List.contains_iff_mem, List.contains_iff_mem]
    exact (same.map ApiKey.api).mem_iff.symm
  rw [isNestedKey, isNestedKey, known]

theorem leastModels_perm {others : List ApiKey} (same : keys.Perm others)
    (distinct : (apiListOf keys).Nodup) : leastModels providers others = leastModels providers keys := by
  have lists : Lists providers (apiListOf others) = Lists providers (apiListOf keys) := by
    funext sets rules model
    simp only [Lists, ListsRule, isNestedKey_perm same]
  have equal : equations providers others = equations providers keys := by
    ext sets api model
    simp only [equations, rulesOf_perm same distinct, lists]
  rw [leastModels, leastModels, equal]

/-- The models of a key, where no cycle of references can be reached from it. -/
theorem Sound.eq_least {resolved : Resolved} (sound : Sound providers keys resolved) {api : PyText}
    (there : (resolved api).isSome) (grounded : Grounded keys api) :
    setsOf resolved api = leastModels providers keys api := by
  obtain ⟨models, found⟩ := Option.isSome_iff_exists.mp there
  refine Set.Subset.antisymm (sound.within api) fun model isLeast => ?_
  exact ⟨models, found, sound.complete api models found grounded isLeast⟩

end Build

/-- **The models of the keys.** If no key's rules name it before a slash, all keys are resolved, each to
models of its least set; a key from which no cycle of references can be reached has all of them, whatever
the order of the keys. -/
theorem buildApiKeyModelsMap_least (providers : List Provider) (keys : List ApiKey)
    (apart : ∀ key ∈ keys, ¬ NamesItself keys key.api key.rules) :
    ∃ resolved, buildApiKeyModelsMap providers keys = .ok resolved ∧
      (∀ api ∈ apiListOf keys, (resolved api).isSome ∧
        setsOf resolved api ⊆ leastModels providers keys api ∧
          (Grounded keys api → setsOf resolved api = leastModels providers keys api)) ∧
      ∀ others, keys.Perm others → (apiListOf keys).Nodup →
        ∃ otherwise, buildApiKeyModelsMap providers others = .ok otherwise ∧
          ∀ api ∈ apiListOf keys, Grounded keys api → setsOf otherwise api = setsOf resolved api := by
  obtain ⟨resolved, ran, sound, there⟩ := build_sound providers apart
  refine ⟨resolved, ran, fun api isKey => ⟨there api isKey, sound.within api, sound.eq_least (there api isKey)⟩,
    fun others same distinct => ?_⟩
  have rules := rulesOf_perm same distinct
  have nested := isNestedKey_perm same
  have apart' : ∀ key ∈ others, ¬ NamesItself others key.api key.rules := by
    intro key isKey
    rw [NamesItself, nested]
    exact apart key (same.mem_iff.mpr isKey)
  obtain ⟨otherwise, ran', sound', there'⟩ := build_sound providers apart'
  refine ⟨otherwise, ran', fun api isKey grounded => ?_⟩
  have grounded' : Grounded others api := by
    have refers : Refers others = Refers keys := by
      funext api name
      simp only [Refers, references, rules, nested]
    rw [Grounded, refers]
    exact grounded
  rw [sound'.eq_least (there' api ((same.map ApiKey.api).mem_iff.mp isKey)) grounded',
    sound.eq_least (there api isKey) grounded, leastModels_perm same distinct]

/-- A provider of one model. -/
def cycleProvider : Provider where
  name := Utf8.points "p"
  modelDictCache := none
  modelDict := ⟨[Utf8.points "a"], List.nodup_singleton _⟩
  preferences := none
  maxRequestBodyBytes := .null
  excludeEndpoints := .null

/-- A key that names another one. -/
def chainKeys : List ApiKey :=
  [⟨Utf8.points "sk-1", [Utf8.points "sk-2/*"]⟩, ⟨Utf8.points "sk-2", [Utf8.points "p/a"]⟩]

theorem chainKeys_grounded : Grounded chainKeys (Utf8.points "sk-1") := by
  refine ⟨_, fun name ⟨rules, isRules, refers⟩ => ?_⟩
  have first : rulesOf chainKeys (Utf8.points "sk-1") = some [Utf8.points "sk-2/*"] := by decide
  rw [first] at isRules
  obtain rfl := Option.some_injective _ isRules
  have second : references (apiListOf chainKeys) (Utf8.points "sk-1") [Utf8.points "sk-2/*"] =
      [Utf8.points "sk-2"] := by decide
  rw [second] at refers
  obtain rfl := List.mem_singleton.mp refers
  refine ⟨_, fun name ⟨rules, isRules, refers⟩ => ?_⟩
  have last : rulesOf chainKeys (Utf8.points "sk-2") = some [Utf8.points "p/a"] := by decide
  rw [last] at isRules
  obtain rfl := Option.some_injective _ isRules
  have none_ : references (apiListOf chainKeys) (Utf8.points "sk-2") [Utf8.points "p/a"] = [] := by decide
  rw [none_] at refers
  cases refers

theorem buildApiKeyModelsMap_least_chain :
    ∃ resolved, buildApiKeyModelsMap [cycleProvider] chainKeys = .ok resolved ∧
      setsOf resolved (Utf8.points "sk-1") =
        leastModels [cycleProvider] chainKeys (Utf8.points "sk-1") := by
  obtain ⟨resolved, ran, within, _⟩ :=
    buildApiKeyModelsMap_least [cycleProvider] chainKeys (by decide)
  exact ⟨resolved, ran, (within (Utf8.points "sk-1") (by decide)).2.2 chainKeys_grounded⟩

/-- Two keys that name each other. -/
def cycleKeys : List ApiKey :=
  [⟨Utf8.points "sk-1", [Utf8.points "sk-2/*", Utf8.points "p/a"]⟩,
    ⟨Utf8.points "sk-2", [Utf8.points "sk-1/*"]⟩]

theorem cycle_cut : ¬ ∀ (providers : List Provider) (keys : List ApiKey), (apiListOf keys).Nodup →
    ∃ resolved, buildApiKeyModelsMap providers keys = .ok resolved ∧
      ∀ api ∈ apiListOf keys, setsOf resolved api = leastModels providers keys api := by
  intro least
  obtain ⟨resolved, ran, equal⟩ := least [cycleProvider] cycleKeys (by decide)
  have cut : (buildApiKeyModelsMap [cycleProvider] cycleKeys).toOption.bind
      (· (Utf8.points "sk-2")) = some [] := by decide
  rw [ran] at cut
  have first : Utf8.points "a" ∈ leastModels [cycleProvider] cycleKeys (Utf8.points "sk-1") := by
    refine mem_leastModels.mpr ⟨_, rfl, ?_⟩
    rw [Lists, if_neg (by decide)]
    refine ⟨Utf8.points "p/a", by decide, ?_⟩
    rw [listsRule_slashed (by decide) (by decide), if_neg (by decide)]
    decide
  have second : Utf8.points "a" ∈ leastModels [cycleProvider] cycleKeys (Utf8.points "sk-2") := by
    refine mem_leastModels.mpr ⟨_, rfl, ?_⟩
    rw [Lists, if_neg (by decide)]
    refine ⟨Utf8.points "sk-1/*", by decide, ?_⟩
    rw [listsRule_slashed (by decide) (by decide), if_pos (by decide)]
    exact ⟨Or.inl (by decide), first⟩
  rw [← equal _ (by decide)] at second
  obtain ⟨models, found, isModel⟩ := second
  have none : models = [] := Option.some_injective _ (found.symm.trans cut)
  exact List.not_mem_nil (none ▸ isModel)

end UniApi.Routing
