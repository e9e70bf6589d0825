/-
**The weights of an API key: the last part of `get_right_order_providers`.**

The weights count only where at least two of the matching providers come of their keys. Then a provider has
the weight of the last key that begins with its name, and a provider without one is not asked at all.

* `weightProviders_counts`: how often each provider occurs, and when none is left.
-/

import Mathlib.Data.List.Dedup
import UniApi.Lib.Dict
import UniApi.Routing.Providers
import UniApi.Routing.RoundRobin

namespace UniApi.Routing

open UniApi.Lib

section Weights

variable (config : List Provider) (requestModel : PyText) (apiList : List PyText)
  (modelsList : PyText → List PyText) (weights : Dict PyText ℤ) (matching : List Provider)

/-- `intersection`, of the matching providers and of those that the keys of the weights give. -/
def intersection : List PyText :=
  let given := getMatchingProviders config requestModel apiList modelsList (weights.entries.map Prod.fst)
  ((matching.map (providerRule ·.name requestModel)).filter
    ((given.map (providerRule ·.name requestModel)).contains ·)).dedup

/-- `filtered_weights`. -/
def filteredWeights (common : List PyText) : Dict PyText ℤ :=
  (weights.entries.filter fun entry => common.contains (providerRule (beforeSlash entry.1) requestModel)).foldl
    (fun dict entry => dict.set (beforeSlash entry.1) entry.2) .empty

/-- `providers_by_name`. -/
def providersByName : Dict PyText Provider :=
  matching.foldl (fun dict provider => dict.set provider.name provider) .empty

/-- What the weights make of the matching providers; `order` is what the scheduling algorithm makes of the
weights that count. -/
def weightProviders (order : List (PyText × ℤ) → Option (List PyText)) : Option (List Provider) :=
  let common := intersection config requestModel apiList modelsList weights matching
  if weights.entries.isEmpty || common.length ≤ 1 then some matching
  else (order (filteredWeights requestModel weights common).entries).map
    (·.filterMap (providersByName matching).get)

end Weights

section Counts

variable {config : List Provider} {requestModel : PyText} {apiList : List PyText}
  {modelsList : PyText → List PyText} {weights : Dict PyText ℤ} {matching : List Provider}

theorem mem_filteredWeights {common : List PyText} : ∀ name ∈
    (filteredWeights requestModel weights common).entries.map Prod.fst,
      providerRule name requestModel ∈ common := by
  refine List.foldlRecOn (motive := fun dict : Dict PyText ℤ => ∀ name ∈ dict.entries.map Prod.fst,
    providerRule name requestModel ∈ common) _ _ (fun _ absent => nomatch absent) ?_
  intro dict known entry isEntry name isName
  rcases Dict.mem_keys_setEntries.mp isName with rfl | old
  · exact List.contains_iff_mem.mp (List.mem_filter.mp isEntry).2
  · exact known name old

theorem providersByName_get : ∀ name ∈ matching.map Provider.name,
    ∃ provider ∈ matching, (providersByName matching).get name = some provider ∧ provider.name = name := by
  unfold providersByName
  induction matching using List.reverseRecOn with
  | nil => exact nofun
  | append_singleton before last ih =>
    intro name isName
    rw [List.foldl_concat, Dict.get_set]
    by_cases same : name = last.name
    · exact ⟨last, List.mem_append_right _ List.mem_cons_self, if_pos same, same.symm⟩
    · rw [if_neg same]
      rw [List.map_append, List.mem_append] at isName
      obtain ⟨provider, isProvider, found⟩ :=
        ih name (isName.resolve_right fun here => same (List.mem_singleton.mp here))
      exact ⟨provider, List.mem_append_left _ isProvider, found⟩

/-- **With weights that count** every provider that has one occurs as often as its weight, no other one
occurs, and nobody is left if no weight is positive. -/
theorem weightProviders_counts (some_ : weights.entries ≠ [])
    (several : 2 ≤ (intersection config requestModel apiList modelsList weights matching).length) :
    let counted := (filteredWeights requestModel weights
      (intersection config requestModel apiList modelsList weights matching)).entries
    ∃ ordered, weightProviders config requestModel apiList modelsList weights matching
        RoundRobin.weightedRoundRobin = some ordered ∧
      (∀ provider ∈ ordered, provider ∈ matching ∧ provider.name ∈ counted.map Prod.fst) ∧
      (∀ entry ∈ counted, ordered.countP (·.name = entry.1) = entry.2.toNat) ∧
      (ordered = [] ↔ ∀ entry ∈ counted, entry.2 ≤ 0) := by
  obtain ⟨schedule, played, length, known, counts⟩ := RoundRobin.weightedRoundRobin_counts
    (filteredWeights requestModel weights
      (intersection config requestModel apiList modelsList weights matching)).distinct
  have found : ∀ name ∈ schedule, ∃ provider ∈ matching,
      (providersByName matching).get name = some provider ∧ provider.name = name := by
    intro name isName
    have inBoth := List.mem_dedup.mp (mem_filteredWeights name (known name isName))
    obtain ⟨provider, isProvider, sameRule⟩ := List.mem_map.mp (List.mem_filter.mp inBoth).1
    exact providersByName_get name
      (List.append_cancel_right sameRule ▸ List.mem_map_of_mem isProvider)
  have names : (schedule.filterMap (providersByName matching).get).map Provider.name = schedule := by
    rw [List.map_filterMap]
    refine (List.filterMap_congr fun name isName => ?_).trans List.filterMap_some
    obtain ⟨provider, -, isFound, isNamed⟩ := found name isName
    rw [isFound, Option.map_some, isNamed]
  refine ⟨schedule.filterMap (providersByName matching).get, ?_, ?_, ?_, ?_⟩
  · rw [weightProviders, if_neg (by simp [some_]; omega), played, Option.map_some]
  · intro provider isProvider
    obtain ⟨name, isName, isFound⟩ := List.mem_filterMap.mp isProvider
    obtain ⟨other, isOther, found, isNamed⟩ := found name isName
    obtain rfl := Option.some.inj (found.symm.trans isFound)
    exact ⟨isOther, isNamed ▸ known name isName⟩
  · intro entry isEntry
    have often : schedule.countP (· = entry.1) = entry.2.toNat := counts entry isEntry
    rw [← names, List.countP_map] at often
    exact often
  · rw [← List.length_eq_zero_iff, ← List.length_map (f := Provider.name), names, length,
      List.sum_eq_zero_iff, List.forall_mem_map]
    exact forall₂_congr fun _ _ => Int.toNat_eq_zero

/-- The weights of `a/*`, `b/m` and `a/m`: the last one of `a` counts. -/
theorem weightProviders_counts_three :
    let both := [Provider.nestedView [97] [109], .nestedView [98] [109]]
    let weights : Dict PyText ℤ :=
      ⟨[([97, 47, 42], 2), ([98, 47, 109], 1), ([97, 47, 109], 3)], by decide⟩
    ∃ ordered, weightProviders both [109] [] (fun _ => []) weights both RoundRobin.weightedRoundRobin =
        some ordered ∧
      ordered.countP (·.name = [97]) = 3 ∧ ordered.countP (·.name = [98]) = 1 := by
  intro both weights
  obtain ⟨ordered, isOrder, -, often, -⟩ :=
    @weightProviders_counts both [109] [] (fun _ => []) weights both (by decide) (by decide)
  have first := often ([97], 3) (by decide)
  have second := often ([98], 1) (by decide)
  exact ⟨ordered, isOrder, first, second⟩

end Counts

end UniApi.Routing
