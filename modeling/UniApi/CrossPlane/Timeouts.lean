/-
**The two planes on the timeouts of a request.**

The Python plane reads the defaults of both policies before the rules of both. The front reads all of
the global policy first, so a default of the provider hides a rule of the configuration.

* `bestRule_alike`: rules that are weighed alike, or lose to others, have the same best timeouts;
* `timeouts_agree_iff`: the planes agree exactly where no default of the provider hides a rule, and no lone
  number is missed.
-/

import UniApi.CrossPlane.TimeoutRules

namespace UniApi.CrossPlane

open UniApi.Lib UniApi.Front UniApi.Upstream UniApi.Config

/-! ### Policies -/

section Policies

variable (runtime : StreamRuntime) (context : Context)

/-- The timeouts of a policy are non-negative integers. -/
structure IntegerPolicy (policy : JsonMap) : Prop where
  default : ∀ timeout, policy.get (Utf8.lit "default") = some (.object timeout) →
    IntegerTimeouts timeout
  rules : ∀ items, policy.get (Utf8.lit "rules") = some (.array items) →
    ∀ rule, .object rule ∈ items →
      ∀ timeout, JsonMap.get rule (Utf8.lit "timeout") = some (.object timeout) →
        IntegerTimeouts timeout

/-- The items of the rules of a policy. -/
def listedRules (policy : JsonMap) : List Value :=
  ((policy.get (Utf8.lit "rules")).bind Value.asArray).getD []

theorem mem_listedRules {policy : JsonMap} {item : Value} (isItem : item ∈ listedRules policy) :
    ∃ items, policy.get (Utf8.lit "rules") = some (.array items) ∧ item ∈ items := by
  unfold listedRules at isItem
  cases found : policy.get (Utf8.lit "rules") with
  | none => rw [found] at isItem; cases isItem
  | some value =>
    rw [found] at isItem
    cases value with
    | array items => exact ⟨items, rfl, isItem⟩
    | _ => cases isItem

theorem rulesOf_eq_some {policy : JsonMap} {items : List Value}
    (iterated : rulesOf ((policy.get (Utf8.lit "rules")).getD .null) = some items) :
    items = listedRules policy := by
  unfold rulesOf listedRules at *
  cases found : policy.get (Utf8.lit "rules") with
  | none => rw [found] at iterated; exact (Option.some_injective _ iterated).symm
  | some value =>
    rw [found, Option.getD_some] at iterated
    cases value with
    | array listed =>
      cases listed <;> exact (Option.some_injective _ iterated).symm
    | _ =>
      split at iterated
      · exact (Option.some_injective _ iterated).symm
      · first
        | exact (Option.some_injective _ iterated).symm
        | cases iterated

/-- **The rules of a policy are read alike by both planes**: each is weighed alike or behind another one;
or no plane takes one with a supported timeout. -/
inductive RulesAlike (policy : JsonMap) : Prop
  | listed : (∀ place item, (listedRules policy)[place]? = some item → WeighedAlike runtime context item ∨
      IsBehind runtime context (listedRules policy) place item) → RulesAlike policy
  | idle : (∀ item ∈ listedRules policy, pythonCandidate runtime context item = none) →
    (∀ item ∈ listedRules policy, ∀ taken, frontCandidate context item = some taken →
      ∀ key ∈ timeoutKeys, taken.2.get (Utf8.lit key) = none) → RulesAlike policy

/-- The seconds of a default that is an object. -/
def objectDefault (policy : Option Value) (key : String) : Option Nat :=
  match ((policy.bind Value.asObject).bind (·.get (Utf8.lit "default"))) with
  | some (.object timeout) => secondsAt runtime timeout key
  | _ => none

/-- The seconds of a default that is a lone number: Python takes it for the first byte. -/
def loneDefault (policy : Option Value) (key : String) : Option Nat :=
  match ((policy.bind Value.asObject).bind (·.get (Utf8.lit "default"))) with
  | some (.number number) =>
    if key = "first_byte" then (intOf runtime (.number number)).map Int.toNat else none
  | _ => none

variable {runtime context}

/-- **The best rules of a policy** whose rules are read alike have the same timeouts. -/
theorem bestRule_alike {policy : JsonMap} {normalized : Policy} (integer : IntegerPolicy policy)
    (alike : RulesAlike runtime context policy)
    (loads : normalizeTimeoutPolicy runtime (some (.object policy)) = some normalized) :
    SameTimeouts (policyRule context policy)
      ((bestTimeoutPolicyRule runtime context normalized.rules).getD []) := by
  obtain ⟨items, rulesAre, rfl⟩ := Option.map_eq_some_iff.mp loads
  obtain rfl := rulesOf_eq_some rulesAre
  have front : policyRule context policy =
      (((listedRules policy).filterMap (frontCandidate context)).foldl keepBest none).elim []
        Prod.snd :=
    congrArg (fun best => Option.elim best [] Prod.snd) (foldl_bestTimeoutStep context _ none)
  rw [front, bestTimeoutPolicyRule, foldl_bestStep]
  cases alike with
  | listed alike =>
    have best : Option.Rel (ScoredAlike SameTimeouts) _ _ := best_alike fun place item isItem =>
      (alike place item isItem).imp_left fun weighed => candidate_alike weighed fun rule isRule => by
        obtain ⟨items, isList, isItem⟩ := mem_listedRules (List.mem_of_getElem? isItem)
        exact integer.rules items isList rule (isRule ▸ isItem)
    generalize ((listedRules policy).filterMap (frontCandidate context)).foldl keepBest none = first,
      ((listedRules policy).filterMap (pythonCandidate runtime context)).foldl keepBest none = second
      at best
    cases best with
    | none => exact sameTimeouts_nil
    | some best => exact best.2
  | idle noPython unsupported =>
    rw [List.filterMap_eq_nil_iff.mpr noPython]
    rcases foldl_keepBest (frontCandidate context) (listedRules policy) with ⟨noBest, _⟩ |
      ⟨best, place, folded, isBest⟩
    · rw [noBest]
      exact sameTimeouts_nil
    · obtain ⟨item, isItem, taken⟩ := isBest.here
      rw [folded]
      exact unsupported item (List.mem_of_getElem? isItem) best taken

/-- A policy that is loaded is an object, or is no policy. -/
theorem policy_cases {policy : Option Value} {normalized : Policy}
    (loads : normalizeTimeoutPolicy runtime policy = some normalized) :
    (∃ members, policy = some (.object members)) ∨
      policy.bind Value.asObject = none ∧ normalized = ⟨[], []⟩ := by
  unfold normalizeTimeoutPolicy at loads
  split at loads
  · exact .inl ⟨_, rfl⟩
  · rename_i noObject
    refine .inr ⟨?_, (Option.some_injective _ loads).symm⟩
    by_contra! present
    obtain ⟨members, isSome⟩ := Option.ne_none_iff_exists'.mp present
    obtain ⟨value, rfl, isMembers⟩ := Option.bind_eq_some_iff.mp isSome
    exact noObject members (congrArg some (asObject_eq_some.mp isMembers))

/-- **The default of a policy**, as each plane reads it. -/
theorem default_eq {policy : Option Value} {normalized : Policy}
    (integer : ∀ members, policy = some (.object members) → IntegerPolicy members)
    (loads : normalizeTimeoutPolicy runtime policy = some normalized) {key : String}
    (known : key ∈ timeoutKeys) :
    JsonMap.get (((policy.bind Value.asObject).map policyDefault).getD []) (Utf8.lit key) =
        (objectDefault runtime policy key).map secondsValue ∧
      normalized.default.lookup key =
        (objectDefault runtime policy key).or (loneDefault runtime policy key) := by
  rcases policy_cases loads with ⟨members, rfl⟩ | ⟨absent, rfl⟩
  · obtain ⟨items, -, rfl⟩ := Option.map_eq_some_iff.mp loads
    simp only [objectDefault, loneDefault, policyDefault, Option.bind_some, Value.asObject, Option.map_some,
      Option.getD_some]
    cases found : JsonMap.get members (Utf8.lit "default") with
    | none => exact ⟨rfl, rfl⟩
    | some value =>
      cases value with
      | object timeout =>
        have same := normalizeTimeoutValues_lookup runtime (integer members rfl |>.default timeout found) known
        have looked := lookup_filterMap_keys (secondsAt runtime timeout) timeoutKeys known
        rw [← normalizeTimeoutValues_object] at looked
        rw [looked] at same
        exact ⟨same, by simpa using looked⟩
      | number number =>
        refine ⟨rfl, ?_⟩
        simp only [Option.getD_some, normalizeTimeoutValues, Option.none_or]
        cases intOf runtime (.number number) with
        | none => simp
        | some seconds =>
          by_cases first : key = "first_byte"
          · simp [first]
          · simp [first, List.lookup_cons, beq_false_of_ne first]
      | _ => exact ⟨rfl, rfl⟩
  · rw [objectDefault, loneDefault, absent]
    exact ⟨rfl, rfl⟩

end Policies

/-! ### Resolution -/

section Resolution

variable {runtime : StreamRuntime} {context : Context}

/-- The timeouts of the best rule of a policy that is loaded. -/
def ruleSeconds (runtime : StreamRuntime) (context : Context) (policy : Policy) (key : String) :
    Option Nat :=
  ((bestTimeoutPolicyRule runtime context policy.rules).getD []).lookup key

/-- The best rule of a policy whose rules are read alike is the same for both planes. -/
theorem ruleSeconds_alike {policy : Option Value} {normalized : Policy}
    (integer : ∀ members, policy = some (.object members) → IntegerPolicy members)
    (alike : ∀ members, policy = some (.object members) → RulesAlike runtime context members)
    (loads : normalizeTimeoutPolicy runtime policy = some normalized) {key : String}
    (known : key ∈ timeoutKeys) :
    JsonMap.get (((policy.bind Value.asObject).map (policyRule context)).getD []) (Utf8.lit key) =
      (ruleSeconds runtime context normalized key).map secondsValue := by
  rcases policy_cases loads with ⟨members, rfl⟩ | ⟨absent, rfl⟩
  · exact bestRule_alike (integer members rfl) (alike members rfl) loads key known
  · rw [absent]
    rfl

theorem mergeTimeoutPolicy_get (target : JsonMap) (policy : Option Value) (key : Bytes) :
    (mergeTimeoutPolicy context target policy).get key =
      (JsonMap.get (((policy.bind Value.asObject).map (policyRule context)).getD []) key).or
        ((JsonMap.get (((policy.bind Value.asObject).map policyDefault).getD []) key).or
          (target.get key)) := by
  unfold mergeTimeoutPolicy
  cases policy.bind Value.asObject with
  | none => rfl
  | some members =>
    change JsonMap.get (JsonMap.extend _ _) key = _
    rw [JsonMap.get_extend, JsonMap.get_extend]
    rfl

/-- The Python plane's order of the layers. -/
theorem resolveTimeoutPolicy_lookup (globalPolicy providerPolicy : Policy) (key : String) :
    (resolveTimeoutPolicy runtime context globalPolicy providerPolicy).lookup key =
      (ruleSeconds runtime context providerPolicy key).or
        ((ruleSeconds runtime context globalPolicy key).or
          ((providerPolicy.default.lookup key).or (globalPolicy.default.lookup key))) := by
  simp only [resolveTimeoutPolicy, ruleSeconds, update, List.lookup_append, List.lookup_nil,
    Option.or_none]

/-- A rule of the configuration and the defaults may change places where one is hidden or absent, or both
say the same, and lone numbers may be left out where another default hides them. -/
theorem layers_agree_iff {α : Type} (providerRule providerDefault providerLone globalRule globalDefault
    globalLone : Option α) :
    providerRule.or (providerDefault.or (globalRule.or globalDefault)) =
        providerRule.or (globalRule.or
          ((providerDefault.or providerLone).or (globalDefault.or globalLone))) ↔
      (providerRule = none →
        (∀ value other, providerDefault = some value → globalRule = some other → value = other) ∧
        (globalRule = none → providerDefault = none →
          (∀ value, providerLone = some value → globalDefault = some value) ∧
          (providerLone = none → globalDefault = none → globalLone = none))) := by
  cases providerRule <;> cases providerDefault <;> cases providerLone <;> cases globalRule <;>
    cases globalDefault <;> cases globalLone <;> simp

/-- The timeouts that `resolve_timeouts` takes from the policies. -/
def resolvedKeys : List String := ["first_byte", "idle", "total"]

/-- **Timeouts agree**: for integer timeouts, and rules of the provider's policy, and of the global one at a
key that the provider's leave alone, that both planes read alike, the front takes the timeouts of the
Python plane if and only if, at such a key, no default of the provider hides another value of the best
global rule, and, where there is no such rule, no default that is a lone number is missed. -/
theorem timeouts_agree_iff {globalPolicy providerPolicy : Option Value}
    {globalLayers providerLayers : Policy}
    (integer : ∀ members, some (.object members) ∈ [globalPolicy, providerPolicy] →
      IntegerPolicy members)
    (providerAlike : ∀ members, providerPolicy = some (.object members) →
      RulesAlike runtime context members)
    (globalAlike : ∀ members, globalPolicy = some (.object members) →
      ∀ key ∈ resolvedKeys, ruleSeconds runtime context providerLayers key = none →
        RulesAlike runtime context members)
    (globalLoads : normalizeTimeoutPolicy runtime globalPolicy = some globalLayers)
    (providerLoads : normalizeTimeoutPolicy runtime providerPolicy = some providerLayers) :
    (∀ key ∈ resolvedKeys, resolvedTimeout context globalPolicy providerPolicy key =
        ((resolveTimeoutPolicy runtime context globalLayers providerLayers).lookup key).map
          .posInt) ↔
      ∀ key ∈ resolvedKeys, ruleSeconds runtime context providerLayers key = none →
        (∀ value other, objectDefault runtime providerPolicy key = some value →
          ruleSeconds runtime context globalLayers key = some other → value = other) ∧
        (ruleSeconds runtime context globalLayers key = none →
          objectDefault runtime providerPolicy key = none →
          (∀ value, loneDefault runtime providerPolicy key = some value →
            objectDefault runtime globalPolicy key = some value) ∧
          (loneDefault runtime providerPolicy key = none →
            objectDefault runtime globalPolicy key = none →
            loneDefault runtime globalPolicy key = none)) := by
  have posInt_injective : Function.Injective JsonNumber.posInt := fun _ _ => JsonNumber.posInt.inj
  have integerGlobal : ∀ members, globalPolicy = some (.object members) → IntegerPolicy members :=
    fun members isObject => integer members (by simp [isObject])
  have integerProvider : ∀ members, providerPolicy = some (.object members) → IntegerPolicy members :=
    fun members isObject => integer members (by simp [isObject])
  refine forall₂_congr fun key isKey => ?_
  have known : key ∈ timeoutKeys := by
    revert key
    decide
  obtain ⟨globalFront, globalPython⟩ := default_eq integerGlobal globalLoads known
  obtain ⟨providerFront, providerPython⟩ := default_eq integerProvider providerLoads known
  have providerRule := ruleSeconds_alike integerProvider providerAlike providerLoads known
  rw [resolveTimeoutPolicy_lookup, globalPython, providerPython, resolvedTimeout, mergeTimeoutPolicy_get,
    mergeTimeoutPolicy_get, globalFront, providerFront, providerRule,
    show JsonMap.get [] (Utf8.lit key) = none from rfl, Option.or_none]
  cases isRule : ruleSeconds runtime context providerLayers key with
  | some seconds => simp [secondsValue, Value.asNumber]
  | none =>
    have globalRule := ruleSeconds_alike integerGlobal
      (fun members isObject => globalAlike members isObject key isKey isRule) globalLoads known
    rw [globalRule, ← layers_agree_iff, ← (Option.map_injective posInt_injective).eq_iff]
    simp only [Option.map_none, Option.none_or, ← Option.map_or]
    cases Option.or _ _ <;> rfl

end Resolution

/-! ### Policies of a configuration -/

/-- A streaming request. -/
def streaming : Context :=
  ⟨Utf8.lit "main", Utf8.lit "gpt", Utf8.lit "gpt-5", Utf8.lit "gpt-5", Utf8.lit "user", true⟩

/-- An integer timeout. -/
def integerTimeout (key : String) (seconds : Nat) : JsonMap :=
  [(Utf8.lit key, secondsValue seconds)]

/-- A policy with one default. -/
def defaultPolicy (key : String) (seconds : Nat) : JsonMap :=
  [(Utf8.lit "default", .object (integerTimeout key seconds))]

/-- A rule for a family of models. -/
def modelRule (key : String) (seconds : Nat) : JsonMap :=
  [(Utf8.lit "match", .object [(Utf8.lit "model", .string (Utf8.lit "GPT-*"))]),
    (Utf8.lit "timeout", .object (integerTimeout key seconds))]

/-- A policy with one rule. -/
def modelPolicy (key : String) (seconds : Nat) : JsonMap :=
  [(Utf8.lit "rules", .array [.object (modelRule key seconds)])]

theorem integerTimeout_integer (key : String) (seconds : Nat) :
    IntegerTimeouts (integerTimeout key seconds) := by
  intro name _ value found
  obtain ⟨_, _, entries, -⟩ := List.lookup_eq_some_iff.mp found
  have isEntry : (Utf8.lit name, value) ∈ integerTimeout key seconds := by simp [entries]
  obtain rfl := congrArg Prod.snd (List.mem_singleton.mp isEntry)
  exact ⟨seconds, rfl⟩

/-- A rule for every request, which only Python reads. -/
def idleRule : JsonMap := [(Utf8.lit "timeout", .object (integerTimeout "idle" 7))]

/-- A rule for other models, with a null. -/
def claudeRule : JsonMap :=
  [(Utf8.lit "match", .object [(Utf8.lit "model", .string (Utf8.lit "claude*")),
      (Utf8.lit "role", .null)]),
    (Utf8.lit "timeout", .object (integerTimeout "total" 1))]

/-- A policy with three rules. -/
def mixedPolicy : JsonMap :=
  [(Utf8.lit "rules",
    .array [.object idleRule, .object (modelRule "first_byte" 30), .object claudeRule])]

theorem defaultPolicy_integer (key : String) (seconds : Nat) :
    IntegerPolicy (defaultPolicy key seconds) where
  default timeout isDefault := by
    have found : (defaultPolicy key seconds).get (Utf8.lit "default") =
        some (.object (integerTimeout key seconds)) := rfl
    rw [found] at isDefault
    cases isDefault
    exact integerTimeout_integer key seconds
  rules items isList := by
    have absent : (defaultPolicy key seconds).get (Utf8.lit "rules") = none := rfl
    rw [absent] at isList
    cases isList

theorem mixedPolicy_integer : IntegerPolicy mixedPolicy where
  default timeout isDefault := by
    have absent : mixedPolicy.get (Utf8.lit "default") = none := rfl
    rw [absent] at isDefault
    cases isDefault
  rules items isList rule isRule timeout isTimeout := by
    have found : mixedPolicy.get (Utf8.lit "rules") =
        some (.array [.object idleRule, .object (modelRule "first_byte" 30), .object claudeRule]) := rfl
    rw [found] at isList
    cases isList
    have timeouts : JsonMap.get idleRule (Utf8.lit "timeout") = some (.object (integerTimeout "idle" 7)) ∧
        JsonMap.get (modelRule "first_byte" 30) (Utf8.lit "timeout") =
          some (.object (integerTimeout "first_byte" 30)) ∧
        JsonMap.get claudeRule (Utf8.lit "timeout") = some (.object (integerTimeout "total" 1)) :=
      ⟨rfl, rfl, rfl⟩
    simp only [List.mem_cons, Value.object.injEq, List.not_mem_nil, or_false] at isRule
    rcases isRule with rfl | rfl | rfl
    · rw [timeouts.1] at isTimeout
      cases isTimeout
      exact integerTimeout_integer _ _
    · rw [timeouts.2.1] at isTimeout
      cases isTimeout
      exact integerTimeout_integer _ _
    · rw [timeouts.2.2] at isTimeout
      cases isTimeout
      exact integerTimeout_integer _ _

/-- The name of a family of models is compared alike with the requested one. -/
theorem family_alike {name : String} (start : Bytes) (isName : Utf8.lit name = start ++ [42])
    (ascii : ∀ byte ∈ start, byte.toNat < 0x80) (stripped : IsStripped (start ++ [42])) :
    MatchedAlike StreamRuntime.plain (Utf8.lit name) (contextText streaming (Utf8.lit "model")) := by
  rw [isName]
  exact .family stripped (by decide) (lowersAlike_ascii ascii)
    (lowersAlike_ascii (by decide +kernel))

/-- The rules are read alike: the first one is behind the second, the third is refused for its model. -/
theorem mixedPolicy_alike : RulesAlike StreamRuntime.plain streaming mixedPolicy := by
  refine .listed fun place item isItem => ?_
  match place with
  | 0 =>
    obtain rfl := Option.some_injective _ isItem
    refine .inr ⟨1, _, (1, integerTimeout "first_byte" 30), rfl, rfl, nofun, ?_⟩
    intro beaten taken
    have weighed : (pythonCandidate StreamRuntime.plain streaming (.object idleRule)).map Prod.fst =
      some 0 := by decide
    rw [taken] at weighed
    exact .inl (by simp [Option.some_injective _ weighed])
  | 1 =>
    obtain rfl := Option.some_injective _ isItem
    refine .inl (@WeighedAlike.plain _ _ _ [(Utf8.lit "model", .string (Utf8.lit "GPT-*"))]
      (integerTimeout "first_byte" 30) "first_byte" rfl rfl (by decide) nofun ?_)
    intro entry isEntry
    obtain rfl := List.mem_singleton.mp isEntry
    refine .found (by decide) List.mem_cons_self (.text ?_ fun _ _ => by decide) (by decide)
    exact family_alike (Utf8.lit "GPT-") rfl (by decide +kernel) (by decide)
  | 2 =>
    obtain rfl := Option.some_injective _ isItem
    have alike : EntryAlike StreamRuntime.plain streaming (Utf8.lit "model")
        (.string (Utf8.lit "claude*")) := by
      refine .every (by decide) rfl fun leaf isLeaf => ?_
      obtain rfl := List.mem_singleton.mp isLeaf
      refine .text (family_alike (Utf8.lit "claude") rfl (by decide +kernel) (by decide)) fun _ matched => ?_
      revert matched
      decide
    exact .inl (.ofEntry rfl List.mem_cons_self alike (by decide))
  | place + 3 => cases isItem

/-- A rule of the configuration and a default of the provider at different keys, with rules that are not read
alike and lose. -/
theorem timeouts_agree_apart :
    ∃ globalLayers providerLayers,
      normalizeTimeoutPolicy StreamRuntime.plain (some (.object mixedPolicy)) = some globalLayers ∧
        normalizeTimeoutPolicy StreamRuntime.plain (some (.object (defaultPolicy "total" 20))) =
          some providerLayers ∧
        ∀ key ∈ resolvedKeys,
          resolvedTimeout streaming (some (.object mixedPolicy))
              (some (.object (defaultPolicy "total" 20))) key =
            ((resolveTimeoutPolicy StreamRuntime.plain streaming globalLayers
              providerLayers).lookup key).map .posInt := by
  refine ⟨_, ⟨[("total", 20)], []⟩, rfl, rfl, (timeouts_agree_iff ?_ ?_ ?_ rfl rfl).mpr ?_⟩
  · intro members isPolicy
    simp only [List.mem_cons, Option.some.injEq, Value.object.injEq, List.not_mem_nil,
      or_false] at isPolicy
    rcases isPolicy with rfl | rfl
    · exact mixedPolicy_integer
    · exact defaultPolicy_integer _ _
  · intro members isPolicy
    cases isPolicy
    exact .listed fun place item isItem => by cases isItem
  · intro members isPolicy _ _ _
    cases isPolicy
    exact mixedPolicy_alike
  · intro key isKey _
    have defaults : objectDefault StreamRuntime.plain (some (.object mixedPolicy)) key = none ∧
        loneDefault StreamRuntime.plain (some (.object mixedPolicy)) key = none ∧
        loneDefault StreamRuntime.plain (some (.object (defaultPolicy "total" 20))) key = none :=
      ⟨rfl, rfl, rfl⟩
    refine ⟨fun value other isDefault isRule => ?_, fun _ _ => ⟨fun value isLone => ?_, fun _ _ => ?_⟩⟩
    · simp only [resolvedKeys, List.mem_cons, List.not_mem_nil, or_false] at isKey
      rcases isKey with rfl | rfl | rfl
      · cases isDefault
      · cases isDefault
      · cases isRule
    · rw [defaults.2.2] at isLone
      cases isLone
    · exact defaults.2.1

/-- **A default of the provider hides a rule of the configuration** from the front: it waits 20 seconds
for the first byte where the Python plane waits 30. -/
theorem provider_default_hides_rule :
    resolvedTimeout streaming (some (.object (modelPolicy "first_byte" 30)))
        (some (.object (defaultPolicy "first_byte" 20))) "first_byte" = some (.posInt 20) ∧
      (resolveTimeouts StreamRuntime.plain streaming
        (some (.object (modelPolicy "first_byte" 30)))
        (some (.object (defaultPolicy "first_byte" 20)))).map (List.lookup "first_byte") =
          some (some 30) :=
  ⟨by decide, by decide⟩

end UniApi.CrossPlane
