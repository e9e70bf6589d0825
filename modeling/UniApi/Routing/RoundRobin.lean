/-
**`weighted_round_robin`: the schedule of weighted providers.**

Every round adds to each provider its weight, selects the first provider whose current weight is largest in
relation to its weight, and takes the total from the one selected. What a provider has left tells how
often it was selected, so a round selects a provider with the smallest share.

* `selects`: a round selects a least served provider, and always selects one;
* `weightedRoundRobin_shares`: every provider occurs as often as its weight;
* `weightedRoundRobin_smooth`: at no time is a provider a whole round ahead of its share;
* `lotteryScheduling_odds`: a draw of `lottery_scheduling` has the odds of the weights.
-/

import Mathlib.Algebra.BigOperators.Ring.List
import Mathlib.Algebra.Order.Field.Rat
import Mathlib.Algebra.Order.Ring.Rat
import Mathlib.Data.List.Induction
import Mathlib.Data.Rat.Cast.Order
import Mathlib.Logic.Function.Basic
import Mathlib.Tactic.Linarith
import Mathlib.Tactic.Ring
import UniApi.Lib.Shares

namespace UniApi.Routing.RoundRobin

open UniApi.Lib

section Schedule

variable {α : Type} [DecidableEq α]

/-! ### The schedule -/

/-- Inside a round: the current weights, the largest ratio so far, and whose it is. -/
structure Round (α : Type) where
  currentWeights : α → ℤ
  maxRatio : ℚ
  selectedProvider : Option α

/-- A provider inside a round. -/
def Round.visit (weights : α → ℕ) (round : Round α) (name : α) : Round α :=
  let current := round.currentWeights name + weights name
  let ratio : ℚ := current / weights name
  let visited := { round with currentWeights := Function.update round.currentWeights name current }
  if round.maxRatio < ratio then { visited with maxRatio := ratio, selectedProvider := some name }
  else visited

/-- The providers of a round in their order. -/
def playRound (weights : α → ℕ) (names : List α) (currentWeights : α → ℤ) : Round α :=
  names.foldl (Round.visit weights) ⟨currentWeights, -1, none⟩

/-- `_weighted_round_robin_cached`: the rounds that are left, behind what was selected. A round that
selects nobody fails where its weight would be taken. -/
def playRounds (weights : α → ℕ) (names : List α) (totalWeight : ℕ) :
    ℕ → (α → ℤ) → List α → Option (List α)
  | 0, _, selected => some selected
  | rounds + 1, currentWeights, selected =>
    let round := playRound weights names currentWeights
    match round.selectedProvider with
    | none => none
    | some name =>
      playRounds weights names totalWeight rounds
        (Function.update round.currentWeights name (round.currentWeights name - totalWeight))
        (selected ++ [name])

def weightedRoundRobinCached (weightItems : List (α × ℕ)) : Option (List α) :=
  let names := weightItems.map Prod.fst
  let weights := fun name => (weightItems.lookup name).getD 0
  let total := totalWeight weights names
  playRounds weights names total total (fun _ => 0) []

/-- `_weight_items`. -/
def weightItems (weights : List (α × ℤ)) : List (α × ℕ) :=
  (weights.filter fun item => 0 < item.2).map fun item => (item.1, item.2.toNat)

/-- `weighted_round_robin`. -/
def weightedRoundRobin (weights : List (α × ℤ)) : Option (List α) :=
  if (weightItems weights).isEmpty then some [] else weightedRoundRobinCached (weightItems weights)

/-! ### A round -/

variable {weights : α → ℕ} {names : List α}

/-- What a round knows behind the providers it has visited. -/
structure Visited (weights : α → ℕ) (start : α → ℤ) (names : List α) (round : Round α) : Prop where
  added : ∀ name, round.currentWeights name =
    if name ∈ names then start name + weights name else start name
  largest : ∀ name ∈ names, ((start name + weights name : ℤ) / weights name : ℚ) ≤ round.maxRatio
  selected : ∀ name, round.selectedProvider = some name →
    name ∈ names ∧ round.maxRatio = ((start name + weights name : ℤ) / weights name : ℚ)
  nobody : round.selectedProvider = none → round.maxRatio = -1

theorem Visited.visit {start : α → ℤ} {name : α} {round : Round α}
    (visited : Visited weights start names round) (fresh : name ∉ names) :
    Visited weights start (names ++ [name]) (round.visit weights name) := by
  have before : round.currentWeights name = start name := by rw [visited.added, if_neg fresh]
  have added : ∀ other, Function.update round.currentWeights name (start name + weights name) other =
      if other ∈ names ++ [name] then start other + weights other else start other := by
    intro other
    by_cases same : other = name
    · subst same
      rw [Function.update_self, if_pos (List.mem_append_right _ List.mem_cons_self)]
    · rw [Function.update_of_ne same, visited.added]
      simp only [List.mem_append, List.mem_singleton, same, or_false]
  unfold Round.visit
  rw [before]
  dsimp only
  split
  · rename_i larger
    refine ⟨added, fun other there => ?_, fun other chosen => ?_, nofun⟩
    · rcases List.mem_append.mp there with earlier | last
      · exact (visited.largest other earlier).trans larger.le
      · rw [List.mem_singleton.mp last]
    · cases chosen
      exact ⟨List.mem_append_right _ List.mem_cons_self, rfl⟩
  · rename_i smaller
    refine ⟨added, fun other there => ?_, fun other chosen => ?_, visited.nobody⟩
    · rcases List.mem_append.mp there with earlier | last
      · exact visited.largest other earlier
      · rw [List.mem_singleton.mp last]
        exact not_lt.mp smaller
    · obtain ⟨isName, isLargest⟩ := visited.selected other chosen
      exact ⟨List.mem_append_left _ isName, isLargest⟩

theorem visited_playRound (distinct : names.Nodup) (start : α → ℤ) :
    Visited weights start names (playRound weights names start) := by
  unfold playRound
  induction names using List.reverseRecOn with
  | nil => exact ⟨fun _ => (if_neg List.not_mem_nil).symm, nofun, nofun, fun _ => rfl⟩
  | append_singleton before name ih =>
    rw [List.nodup_append] at distinct
    obtain ⟨distinctBefore, -, apart⟩ := distinct
    rw [List.foldl_append]
    exact (ih distinctBefore).visit fun there => apart name there name List.mem_cons_self rfl

/-! ### The rounds -/

/-- The current weights tell how often each provider was selected. -/
def Settled (weights : α → ℕ) (names : List α) (selected : List α) (currentWeights : α → ℤ) : Prop :=
  ∀ name ∈ names, currentWeights name =
    selected.length * weights name - totalWeight weights names * selected.count name

/-- A ratio says how many rounds a provider is ahead of its share. -/
theorem ratio_le_iff {selected : List α} {start : α → ℤ} (settled : Settled weights names selected start)
    (positive : ∀ name ∈ names, 0 < weights name) {name other : α} (isName : name ∈ names)
    (isOther : other ∈ names) :
    ((start other + weights other : ℤ) / weights other : ℚ) ≤
        ((start name + weights name : ℤ) / weights name : ℚ) ↔
      totalWeight weights names * (selected.count name * weights other) ≤
        totalWeight weights names * (selected.count other * weights name) := by
  have here : (0 : ℚ) < weights name := by exact_mod_cast positive name isName
  have there : (0 : ℚ) < weights other := by exact_mod_cast positive other isOther
  rw [div_le_div_iff₀ there here, settled name isName, settled other isOther]
  constructor
  · intro smaller
    have whole : ((totalWeight weights names * (selected.count name * weights other) : ℕ) : ℚ) ≤
        (totalWeight weights names * (selected.count other * weights name) : ℕ) := by
      push_cast at smaller ⊢
      linarith
    exact_mod_cast whole
  · intro smaller
    have whole : ((totalWeight weights names * (selected.count name * weights other) : ℕ) : ℚ) ≤
        (totalWeight weights names * (selected.count other * weights name) : ℕ) := by
      exact_mod_cast smaller
    push_cast at whole ⊢
    linarith

/-- **A round selects a provider that is least served.** -/
theorem selects {selected : List α} {start : α → ℤ} (distinct : names.Nodup)
    (positive : ∀ name ∈ names, 0 < weights name) (settled : Settled weights names selected start)
    (isSome : names ≠ []) (least : LeastFirst weights names selected) :
    ∃ name, (playRound weights names start).selectedProvider = some name ∧
      LeastFirst weights names (selected ++ [name]) := by
  have visited : Visited weights start names (playRound weights names start) :=
    visited_playRound distinct start
  have total : 0 < totalWeight weights names := by
    obtain ⟨head, rest, rfl⟩ := List.exists_cons_of_ne_nil isSome
    have := positive head List.mem_cons_self
    simp only [totalWeight, List.map_cons, List.sum_cons]
    omega
  cases chosen : (playRound weights names start).selectedProvider with
  | some name =>
    obtain ⟨isName, isLargest⟩ := visited.selected name chosen
    refine ⟨name, rfl, least.pick isName fun other isOther => ?_⟩
    have smaller := visited.largest other isOther
    rw [isLargest, ratio_le_iff settled positive isName isOther] at smaller
    exact Nat.le_of_mul_le_mul_left smaller total
  | none =>
    -- nobody is above -1 only if everybody was selected more often than there were rounds
    exfalso
    have every : ∀ name ∈ names, (selected.length + 2) * weights name ≤
        totalWeight weights names * selected.count name := by
      intro name isName
      have here : (0 : ℚ) < weights name := by exact_mod_cast positive name isName
      have low := visited.largest name isName
      rw [visited.nobody chosen, div_le_iff₀ here, settled name isName] at low
      have whole : (((selected.length + 2) * weights name : ℕ) : ℚ) ≤
          (totalWeight weights names * selected.count name : ℕ) := by
        push_cast at low ⊢
        linarith
      exact_mod_cast whole
    have sums := List.sum_le_sum every
    rw [List.sum_map_mul_left, List.sum_map_mul_left, sum_count distinct least.known] at sums
    have more : totalWeight weights names * selected.length <
        (selected.length + 2) * (names.map weights).sum := by
      show _ < (selected.length + 2) * totalWeight weights names
      rw [Nat.mul_comm]
      exact Nat.mul_lt_mul_of_pos_right (by omega) total
    omega

/-- What the selected provider pays keeps the weights in step. -/
theorem settled_round {selected : List α} {start : α → ℤ} (distinct : names.Nodup)
    (settled : Settled weights names selected start) (name : α) :
    Settled weights names (selected ++ [name])
      (Function.update (playRound weights names start).currentWeights name
        ((playRound weights names start).currentWeights name - totalWeight weights names)) := by
  have visited : Visited weights start names (playRound weights names start) :=
    visited_playRound distinct start
  intro other isOther
  rw [List.length_append, List.length_singleton, List.count_append, List.count_singleton]
  by_cases same : other = name
  · subst same
    rw [Function.update_self, visited.added, if_pos isOther, settled other isOther, beq_self_eq_true,
      if_pos rfl]
    push_cast
    ring
  · rw [Function.update_of_ne same, visited.added, if_pos isOther, settled other isOther,
      beq_eq_false_iff_ne.mpr (Ne.symm same), if_neg Bool.false_ne_true]
    push_cast
    ring

/-- **The rounds** pick the least served. -/
theorem playRounds_leastFirst (distinct : names.Nodup) (positive : ∀ name ∈ names, 0 < weights name)
    (isSome : names ≠ []) (rounds : ℕ) :
    ∀ (start : α → ℤ) (selected : List α), Settled weights names selected start →
      LeastFirst weights names selected →
        ∃ schedule, playRounds weights names (totalWeight weights names) rounds start selected =
            some schedule ∧
          LeastFirst weights names schedule ∧ schedule.length = selected.length + rounds := by
  induction rounds with
  | zero => exact fun start selected _ least => ⟨selected, rfl, least, rfl⟩
  | succ rounds ih =>
    intro start selected settled least
    obtain ⟨name, chosen, picked⟩ := selects distinct positive settled isSome least
    obtain ⟨schedule, played, isLeast, length⟩ :=
      ih _ _ (settled_round distinct settled name) picked
    refine ⟨schedule, ?_, isLeast, ?_⟩
    · rw [playRounds]
      simp only [chosen]
      exact played
    · rw [length, List.length_append, List.length_singleton]
      omega

/-! ### The schedule gives exact shares -/

theorem lookup_of_mem {items : List (α × ℕ)} (distinct : (items.map Prod.fst).Nodup) {item : α × ℕ}
    (listed : item ∈ items) : items.lookup item.1 = some item.2 := by
  induction items with
  | nil => cases listed
  | cons head rest ih =>
    rw [List.map_cons, List.nodup_cons] at distinct
    rw [List.lookup_cons]
    rcases List.mem_cons.mp listed with rfl | behind
    · rw [beq_self_eq_true]
    · have other : item.1 ≠ head.1 := by
        intro same
        exact distinct.1 (same ▸ List.mem_map_of_mem behind)
      rw [beq_eq_false_iff_ne.mpr other]
      exact ih distinct.2 behind

/-- **The rounds of a schedule** pick the least served. -/
theorem weightedRoundRobinCached_leastFirst {items : List (α × ℕ)}
    (distinct : (items.map Prod.fst).Nodup) (positive : ∀ item ∈ items, 0 < item.2) (isSome : items ≠ []) :
    ∃ weights : α → ℕ, (∀ item ∈ items, weights item.1 = item.2) ∧
      totalWeight weights (items.map Prod.fst) = (items.map Prod.snd).sum ∧
      ∃ schedule, weightedRoundRobinCached items = some schedule ∧
        LeastFirst weights (items.map Prod.fst) schedule ∧
        schedule.length = totalWeight weights (items.map Prod.fst) := by
  have known : ∀ item ∈ items, (items.lookup item.1).getD 0 = item.2 := by
    intro item listed
    rw [lookup_of_mem distinct listed]
    rfl
  have weighty : ∀ name ∈ items.map Prod.fst, 0 < (items.lookup name).getD 0 := by
    intro name isName
    obtain ⟨item, listed, rfl⟩ := List.mem_map.mp isName
    rw [known item listed]
    exact positive item listed
  refine ⟨fun name => (items.lookup name).getD 0, known, ?_, ?_⟩
  · rw [totalWeight, List.map_map]
    exact congrArg List.sum (List.map_congr_left known)
  · obtain ⟨schedule, played, least, length⟩ := playRounds_leastFirst distinct weighty
      (fun empty => isSome (List.map_eq_nil_iff.mp empty))
      (totalWeight (fun name => (items.lookup name).getD 0) (items.map Prod.fst)) (fun _ => 0) []
      (fun name _ => by simp) .nil
    rw [List.length_nil, Nat.zero_add] at length
    exact ⟨schedule, played, least, length⟩

theorem weightedRoundRobinCached_shares {items : List (α × ℕ)} (distinct : (items.map Prod.fst).Nodup)
    (positive : ∀ item ∈ items, 0 < item.2) (isSome : items ≠ []) :
    ∃ schedule, weightedRoundRobinCached items = some schedule ∧
      schedule.length = (items.map Prod.snd).sum ∧ (∀ name ∈ schedule, name ∈ items.map Prod.fst) ∧
      ∀ item ∈ items, schedule.count item.1 = item.2 := by
  obtain ⟨weights, known, total, schedule, played, least, length⟩ :=
    weightedRoundRobinCached_leastFirst distinct positive isSome
  have weighty : ∀ name ∈ items.map Prod.fst, 0 < weights name := by
    intro name isName
    obtain ⟨item, listed, rfl⟩ := List.mem_map.mp isName
    rw [known item listed]
    exact positive item listed
  refine ⟨schedule, played, length.trans total, least.known, fun item listed => ?_⟩
  exact (least.count_eq distinct weighty length item.1 (List.mem_map_of_mem listed)).trans (known item listed)

omit [DecidableEq α] in
theorem mem_weightItems {weights : List (α × ℤ)} {item : α × ℕ} (listed : item ∈ weightItems weights) :
    0 < item.2 ∧ (item.1, (item.2 : ℤ)) ∈ weights := by
  obtain ⟨original, isOriginal, rfl⟩ := List.mem_map.mp listed
  obtain ⟨isWeight, positive⟩ := List.mem_filter.mp isOriginal
  have positive' : 0 < original.2 := of_decide_eq_true positive
  refine ⟨by omega, ?_⟩
  rwa [Int.toNat_of_nonneg positive'.le]

omit [DecidableEq α] in
theorem weightItems_distinct {weights : List (α × ℤ)} (distinct : (weights.map Prod.fst).Nodup) :
    ((weightItems weights).map Prod.fst).Nodup := by
  rw [weightItems, List.map_map]
  exact distinct.sublist (List.filter_sublist.map _)

omit [DecidableEq α] in
/-- A sum over the items is one over the dict, where what is not positive counts nothing. -/
theorem weightItems_sum (part : α → ℕ → ℕ) (none : ∀ name, part name 0 = 0) (weights : List (α × ℤ)) :
    ((weightItems weights).map fun item => part item.1 item.2).sum =
      (weights.map fun item => part item.1 item.2.toNat).sum := by
  rw [weightItems, List.map_map]
  induction weights with
  | nil => rfl
  | cons item rest ih =>
    rw [List.map_cons, List.sum_cons, ← ih]
    by_cases positive : 0 < item.2
    · rw [List.filter_cons, if_pos (decide_eq_true positive), List.map_cons, List.sum_cons]
      rfl
    · rw [List.filter_cons, if_neg (by simpa using positive), Int.toNat_of_nonpos (not_lt.mp positive),
        none, Nat.zero_add]

omit [DecidableEq α] in
theorem mem_weightItems_of_pos {weights : List (α × ℤ)} {item : α × ℤ} (listed : item ∈ weights)
    (positive : 0 < item.2) : (item.1, item.2.toNat) ∈ weightItems weights :=
  List.mem_map.mpr ⟨item, List.mem_filter.mpr ⟨listed, decide_eq_true positive⟩, rfl⟩

omit [DecidableEq α] in
theorem not_mem_weightItems {weights : List (α × ℤ)} (distinct : (weights.map Prod.fst).Nodup)
    {item : α × ℤ} (listed : item ∈ weights) (light : ¬ 0 < item.2) :
    item.1 ∉ (weightItems weights).map Prod.fst := by
  intro there
  obtain ⟨other, isOther, sameName⟩ := List.mem_map.mp there
  obtain ⟨positive, isWeight⟩ := mem_weightItems isOther
  have same : (other.1, (other.2 : ℤ)) = item := List.inj_on_of_nodup_map distinct isWeight listed sameName
  rw [← same] at light
  exact light (Int.natCast_pos.mpr positive)

/-- **The shares of any dict of weights**: names without a positive weight do not occur. -/
theorem weightedRoundRobin_counts {weights : List (α × ℤ)} (distinct : (weights.map Prod.fst).Nodup) :
    ∃ schedule, weightedRoundRobin weights = some schedule ∧
      schedule.length = (weights.map fun item => item.2.toNat).sum ∧
      (∀ name ∈ schedule, name ∈ weights.map Prod.fst) ∧
      ∀ item ∈ weights, schedule.count item.1 = item.2.toNat := by
  by_cases empty : weightItems weights = []
  · refine ⟨[], if_pos (List.isEmpty_iff.mpr empty), ?_, nofun, fun item isItem => ?_⟩
    · rw [← weightItems_sum (fun _ weight => weight) (fun _ => rfl), empty]
      rfl
    · by_cases positive : 0 < item.2
      · have listed := mem_weightItems_of_pos isItem positive
        rw [empty] at listed
        cases listed
      · rw [Int.toNat_of_nonpos (not_lt.mp positive)]
        rfl
  · obtain ⟨schedule, played, length, known, counts⟩ := weightedRoundRobinCached_shares
      (weightItems_distinct distinct) (fun item listed => (mem_weightItems listed).1) empty
    refine ⟨schedule, (if_neg fun isEmpty => empty (List.isEmpty_iff.mp isEmpty)).trans played,
      length.trans (weightItems_sum (fun _ weight => weight) (fun _ => rfl) weights),
      fun name there => ?_, fun item isItem => ?_⟩
    · obtain ⟨item, listed, rfl⟩ := List.mem_map.mp (known name there)
      exact List.mem_map_of_mem (f := Prod.fst) (mem_weightItems listed).2
    · by_cases positive : 0 < item.2
      · exact counts (item.1, item.2.toNat) (mem_weightItems_of_pos isItem positive)
      · rw [Int.toNat_of_nonpos (not_lt.mp positive)]
        exact List.count_eq_zero.mpr fun there =>
          not_mem_weightItems distinct isItem positive (known _ there)

/-- **The schedule is smooth**: behind any number of rounds no provider has been selected a whole time
more than its share of them. -/
theorem weightedRoundRobin_smooth {weights : List (α × ℤ)} (distinct : (weights.map Prod.fst).Nodup) :
    ∃ schedule, weightedRoundRobin weights = some schedule ∧
      ∀ front, front <+: schedule → ∀ item ∈ weights, 0 < item.2 →
        (weights.map fun item => item.2.toNat).sum * front.count item.1 + item.2.toNat ≤
          front.length * item.2.toNat + (weights.map fun item => item.2.toNat).sum := by
  by_cases empty : weightItems weights = []
  · refine ⟨[], if_pos (List.isEmpty_iff.mpr empty), fun front _ item isItem positive => ?_⟩
    have listed := mem_weightItems_of_pos isItem positive
    rw [empty] at listed
    cases listed
  · obtain ⟨shares, known, total, schedule, played, least, -⟩ := weightedRoundRobinCached_leastFirst
      (weightItems_distinct distinct) (fun item listed => (mem_weightItems listed).1) empty
    refine ⟨schedule, (if_neg fun isEmpty => empty (List.isEmpty_iff.mp isEmpty)).trans played,
      fun front isPrefix item isItem positive => ?_⟩
    have listed := mem_weightItems_of_pos isItem positive
    have share := (least.of_prefix isPrefix).count_le_share (weightItems_distinct distinct)
      (List.mem_map_of_mem (f := Prod.fst) listed)
    rwa [total, weightItems_sum (fun _ weight => weight) (fun _ => rfl), known _ listed] at share

/-- Three providers with weights 2, 1 and 3. -/
theorem weightedRoundRobin_smooth_three :
    ∃ schedule, weightedRoundRobin [("a", 2), ("b", 1), ("c", 3)] = some schedule ∧
      ∀ front, front <+: schedule → ∀ item ∈ [("a", (2 : ℤ)), ("b", 1), ("c", 3)], 0 < item.2 →
        6 * front.count item.1 + item.2.toNat ≤ front.length * item.2.toNat + 6 :=
  weightedRoundRobin_smooth (by decide)

/-- **Exact shares**: every round selects a provider, and each provider is selected as often as its
weight. -/
theorem weightedRoundRobin_shares {weights : List (α × ℤ)} (distinct : (weights.map Prod.fst).Nodup)
    (positive : ∀ item ∈ weights, 0 < item.2) :
    ∃ schedule, weightedRoundRobin weights = some schedule ∧
      (schedule.length : ℤ) = (weights.map Prod.snd).sum ∧
      (∀ name ∈ schedule, name ∈ weights.map Prod.fst) ∧
      ∀ item ∈ weights, (schedule.count item.1 : ℤ) = item.2 := by
  obtain ⟨schedule, played, length, known, counts⟩ := weightedRoundRobin_counts distinct
  refine ⟨schedule, played, ?_, known, fun item isItem => ?_⟩
  · rw [length]
    clear distinct played length known counts
    induction weights with
    | nil => rfl
    | cons item rest ih =>
      rw [List.map_cons, List.sum_cons, List.map_cons, List.sum_cons, Nat.cast_add,
        Int.toNat_of_nonneg (positive item List.mem_cons_self).le,
        ih fun other there => positive other (List.mem_cons_of_mem _ there)]
  · rw [counts item isItem, Int.toNat_of_nonneg (positive item isItem).le]

/-- Three providers with weights 2, 1 and 3. -/
theorem weightedRoundRobin_shares_three :
    ∃ schedule, weightedRoundRobin [("a", 2), ("b", 1), ("c", 3)] = some schedule ∧
      (schedule.length : ℤ) = 6 ∧ (∀ name ∈ schedule, name ∈ ["a", "b", "c"]) ∧
      ∀ item ∈ [("a", (2 : ℤ)), ("b", 1), ("c", 3)], (schedule.count item.1 : ℤ) = item.2 :=
  weightedRoundRobin_shares (by decide) (by decide)

/-! ### The lottery -/

/-- `cumulative_weights`, from a running total on. -/
def cumulativeWeights (runningTotal : ℕ) : List (α × ℕ) → List ℕ
  | [] => []
  | item :: rest => (runningTotal + item.2) :: cumulativeWeights (runningTotal + item.2) rest

/-- The name at `bisect.bisect_left(cumulative_weights, draw)`: where the first sum is that reaches the
draw. -/
def drawnName (runningTotal : ℕ) (items : List (α × ℕ)) (draw : ℕ) : Option α :=
  (items.map Prod.fst)[(cumulativeWeights runningTotal items).findIdx (draw ≤ ·)]?

/-- `lottery_scheduling`, with what `random.randint` gives. -/
def lotteryScheduling (weights : List (α × ℤ)) (draws : List ℕ) : Option (List α) :=
  if (weightItems weights).isEmpty then some []
  else draws.mapM (drawnName 0 (weightItems weights))

omit [DecidableEq α] in
theorem drawnName_cons (runningTotal : ℕ) (item : α × ℕ) (rest : List (α × ℕ)) (draw : ℕ) :
    drawnName runningTotal (item :: rest) draw =
      if draw ≤ runningTotal + item.2 then some item.1
      else drawnName (runningTotal + item.2) rest draw := by
  unfold drawnName
  rw [cumulativeWeights, List.findIdx_cons]
  by_cases reached : draw ≤ runningTotal + item.2
  · rw [decide_eq_true reached, if_pos reached]
    rfl
  · rw [decide_eq_false reached, if_neg reached]
    rfl

omit [DecidableEq α] in
theorem drawnName_isSome {runningTotal draw : ℕ} {items : List (α × ℕ)} (some_ : items ≠ [])
    (within : draw ≤ runningTotal + (items.map Prod.snd).sum) :
    (drawnName runningTotal items draw).isSome := by
  induction items generalizing runningTotal with
  | nil => exact absurd rfl some_
  | cons item rest ih =>
    rw [List.map_cons, List.sum_cons, ← Nat.add_assoc] at within
    rw [drawnName_cons]
    split
    · rfl
    · rename_i beyond
      refine ih (fun empty => beyond ?_) within
      rw [empty] at within
      exact within

/-- **The draws of a name** are as many as its weight. -/
theorem drawnName_countP (runningTotal : ℕ) (items : List (α × ℕ)) (name : α) :
    (List.range' (runningTotal + 1) (items.map Prod.snd).sum).countP
        (fun draw => drawnName runningTotal items draw = some name) =
      (items.map fun item => if item.1 = name then item.2 else 0).sum := by
  induction items generalizing runningTotal with
  | nil => rfl
  | cons item rest ih =>
    rw [List.map_cons, List.sum_cons, List.map_cons, List.sum_cons, ← ih (runningTotal + item.2),
      ← List.range'_append_1, List.countP_append, Nat.add_right_comm]
    congr 1
    · have own : ∀ draw ∈ List.range' (runningTotal + 1) item.2,
          drawnName runningTotal (item :: rest) draw = some item.1 := fun draw there => by
        rw [drawnName_cons, if_pos (by have := List.mem_range'_1.mp there; omega)]
      split
      · rename_i same
        subst same
        rw [List.countP_eq_length.mpr fun draw there => decide_eq_true (own draw there), List.length_range']
      · rename_i differs
        refine List.countP_eq_zero.mpr fun draw there => ?_
        rw [decide_eq_true_eq, own draw there, Option.some.injEq]
        exact differs
    · refine List.countP_congr fun draw there => ?_
      rw [drawnName_cons, if_neg (by have := List.mem_range'_1.mp there; omega)]

/-- **The odds of the lottery**: every draw that `random.randint(1, running_total)` can give is of a name,
and each name has as many of them as its weight. -/
theorem lotteryScheduling_odds {weights : List (α × ℤ)} (distinct : (weights.map Prod.fst).Nodup) :
    (∀ draws, (∀ draw ∈ draws, 1 ≤ draw ∧ draw ≤ (weights.map fun item => item.2.toNat).sum) →
        (lotteryScheduling weights draws).isSome) ∧
      ∀ item ∈ weights, (List.range' 1 (weights.map fun item => item.2.toNat).sum).countP
        (fun draw => drawnName 0 (weightItems weights) draw = some item.1) = item.2.toNat := by
  have total := weightItems_sum (fun _ weight => weight) (fun _ => rfl) weights
  refine ⟨fun draws within => ?_, fun item isItem => ?_⟩
  · unfold lotteryScheduling
    split
    · rfl
    · rename_i some_
      rw [← total] at within
      induction draws with
      | nil => rfl
      | cons draw rest ih =>
        obtain ⟨here, later⟩ := List.forall_mem_cons.mp within
        have draws := @drawnName_isSome α 0 draw _ (fun empty => some_ (List.isEmpty_iff.mpr empty))
          (by rw [Nat.zero_add]; exact here.2)
        obtain ⟨name, isName⟩ := Option.isSome_iff_exists.mp draws
        obtain ⟨names, areNames⟩ := Option.isSome_iff_exists.mp (ih later)
        rw [List.mapM_cons, isName, areNames]
        rfl
  · have alone : ∀ other ≠ item, other ∈ weights → (if other.1 = item.1 then other.2.toNat else 0) = 0 :=
      fun other differs isOther => if_neg fun same =>
        differs (List.inj_on_of_nodup_map distinct isOther isItem same)
    rw [← total, drawnName_countP 0,
      weightItems_sum (fun name weight => if name = item.1 then weight else 0) (fun _ => ite_self 0),
      List.sum_map_eq_nsmul_single item _ alone,
      @List.count_eq_one_of_mem _ instBEqOfDecidableEq _ _ _ distinct.of_map isItem, one_nsmul, if_pos rfl]

/-- Three providers, one of them without a weight. -/
theorem lotteryScheduling_odds_three :
    (∀ draws, (∀ draw ∈ draws, 1 ≤ draw ∧ draw ≤ 5) →
        (lotteryScheduling [("a", 2), ("b", 0), ("c", 3)] draws).isSome) ∧
      ∀ item ∈ [("a", (2 : ℤ)), ("b", 0), ("c", 3)], (List.range' 1 5).countP
        (fun draw => drawnName 0 (weightItems [("a", 2), ("b", 0), ("c", 3)]) draw = some item.1) =
          item.2.toNat :=
  @lotteryScheduling_odds String _ [("a", 2), ("b", 0), ("c", 3)] (by decide)

end Schedule

end UniApi.Routing.RoundRobin
