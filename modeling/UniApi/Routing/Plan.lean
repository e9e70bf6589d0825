/-
**The routing plan of a request: a ring of providers, a budget, and one cursor.**

`next_provider` consumes slots of a ring that is fixed when the plan is made. A slot of a provider that
is not eligible any more, or whose keys are all limited, is consumed and passed over.

* `nextProvider_consumes`: what one call consumes, and where it leaves the cursor;
* `run_consumes`: the slots of a run;
* `nextProvider_eligible`, `run_available`: what is returned is eligible;
* `run_whole`: a run in which no slot is passed over;
* `ring_law`: the four laws of every run of a plan that was just made.
-/

import UniApi.Lib.Mealy
import UniApi.Lib.PyText
import UniApi.Lib.RingCursor

namespace UniApi.Routing

open UniApi.Lib

/-! ### Making a plan -/

/-- What a plan reads of a provider: its name, and its `_model_dict_cache`. -/
structure PlannedProvider where
  provider : PyText
  modelDictCache : List (PyText × PyText)
  deriving DecidableEq

/-- The part of a plan that changes. -/
structure RoutingPlanState where
  matchingProviders : List PlannedProvider
  retryCount : ℕ
  availableProviderNames : List PyText
  index : ℕ := 0
  statusCode : ℤ := 500
  errorMessage : Option String := none

namespace RoutingPlanState

def numMatchingProviders (state : RoutingPlanState) : ℕ := state.matchingProviders.length

def recordFailure (state : RoutingPlanState) (statusCode : ℤ) (errorMessage : String) :
    RoutingPlanState :=
  { state with statusCode := statusCode, errorMessage := some errorMessage }

end RoutingPlanState

structure RoutingPlan where
  requestModelName : PyText
  startIndex : ℕ
  state : RoutingPlanState

/-- `frozenset` of the names of providers. -/
def providerNames (providers : List PlannedProvider) : List PyText := providers.map (·.provider)

/-- The number of attempts beyond the first pass, by the number of keys of each provider. -/
def computeRetryCount (itemsCount : PyText → ℕ) : List PlannedProvider → ℕ
  | [] => 0
  | [only] =>
    if only.provider ≠ [] ∧ 1 < itemsCount only.provider then itemsCount only.provider
    else min (itemsCount only.provider * 2) 10
  | providers => min ((providers.map fun provider => itemsCount provider.provider).sum * 2) 10

/-- The place at which the ring of a request starts, and the places of the requests before. -/
def computeStartIndex (lastProviderIndices : PyText → ℤ) (requestModelName : PyText)
    (schedulingAlgorithm : String) (numMatchingProviders : ℕ) : ℕ × (PyText → ℤ) :=
  if schedulingAlgorithm ≠ "fixed_priority" ∧ 1 < numMatchingProviders then
    let index := (lastProviderIndices requestModelName + 1) % numMatchingProviders
    (index.toNat, Function.update lastProviderIndices requestModelName index)
  else (0, lastProviderIndices)

namespace RoutingPlan

/-- `RoutingPlan.create`, from the providers that the resolver returned. -/
def create (itemsCount : PyText → ℕ) (lastProviderIndices : PyText → ℤ)
    (requestModelName : PyText) (schedulingAlgorithm : String)
    (matchingProviders : List PlannedProvider) : RoutingPlan × (PyText → ℤ) :=
  let start := computeStartIndex lastProviderIndices requestModelName schedulingAlgorithm
    matchingProviders.length
  ({ requestModelName := requestModelName
     startIndex := start.1
     state :=
      { matchingProviders := matchingProviders
        retryCount := computeRetryCount itemsCount matchingProviders
        availableProviderNames := providerNames matchingProviders } }, start.2)

/-- `restrict_to_provider`. -/
def restrictToProvider (plan : RoutingPlan) (providerName : PyText) : Bool × RoutingPlan :=
  let matchingProviders := plan.state.matchingProviders.filter (·.provider = providerName)
  if matchingProviders.isEmpty then (false, plan)
  else
    (true, { plan with
      state := { plan.state with
        matchingProviders := matchingProviders
        retryCount := 0
        availableProviderNames := [providerName]
        index := 0 } })

/-- `refresh_matching_providers`, where `none` is a resolver that raises. -/
def refreshMatchingProviders (plan : RoutingPlan) (resolved : Option (List PlannedProvider)) :
    RoutingPlan :=
  match resolved with
  | none => plan
  | some matchingProviders =>
    { plan with
      state := { plan.state with
        availableProviderNames := (providerNames plan.state.matchingProviders).filter
          (· ∈ providerNames matchingProviders) } }

/-! ### The next provider -/

end RoutingPlan

structure ProviderAttempt where
  provider : PlannedProvider
  providerName : PyText
  originalModel : PyText
  deriving DecidableEq

/-- What becomes of a slot that is consumed. -/
inductive SlotOutcome where
  | unavailable
  | modelMissing
  | allRateLimited
  | attempt (attempt : ProviderAttempt)
  deriving DecidableEq

/-- A slot that was consumed: its place in the ring, and the provider there. -/
structure Slot where
  place : ℕ
  provider : PlannedProvider
  outcome : SlotOutcome

/-- How a call of `next_provider` ends. -/
inductive NextAnswer where
  | attempt (attempt : ProviderAttempt)
  | none
  | raised
  deriving DecidableEq

/-- A call of `next_provider`: the slots that it consumed, how it ended, and the plan after it. -/
structure NextCall where
  consumed : List Slot
  answer : NextAnswer
  plan : RoutingPlan

/-- The keys that are limited: whether all keys of a provider are limited for a model when the slot with
the given number is checked. -/
abbrev KeyLimits := ℕ → PyText → PyText → Bool

namespace RoutingPlan

variable (limits : KeyLimits)

/-- The slot limit of a plan. -/
def slotLimit (plan : RoutingPlan) : ℕ :=
  plan.state.numMatchingProviders + plan.state.retryCount

/-- What one turn of the loop makes of the slot of a provider. -/
def slotOutcome (plan : RoutingPlan) (provider : PlannedProvider) : SlotOutcome :=
  if provider.provider ∉ plan.state.availableProviderNames then .unavailable
  else
    match provider.modelDictCache.lookup plan.requestModelName with
    | none => .modelMissing
    | some originalModel =>
      if limits plan.state.index provider.provider originalModel then .allRateLimited
      else .attempt ⟨provider, provider.provider, originalModel⟩

/-- The plan after the cursor moved. -/
def advance (plan : RoutingPlan) : RoutingPlan :=
  { plan with state := { plan.state with index := plan.state.index + 1 } }

/-- The plan after all keys of a slot were limited. -/
def recordLimited (plan : RoutingPlan) : RoutingPlan :=
  { plan with
    state := plan.state.recordFailure 429 "All API keys are rate limited and stop auto retry!" }

/-- `next_provider`. In an empty ring with a budget the place of the slot cannot be computed. -/
def nextProvider (plan : RoutingPlan) : NextCall :=
  if plan.state.index < plan.slotLimit then
    if nonempty : 0 < plan.state.matchingProviders.length then
      let currentIndex := (plan.startIndex + plan.state.index) % plan.state.matchingProviders.length
      let provider := plan.state.matchingProviders.get ⟨currentIndex, Nat.mod_lt _ nonempty⟩
      let outcome := slotOutcome limits plan provider
      let slot : Slot := ⟨currentIndex, provider, outcome⟩
      match outcome with
      | .unavailable =>
        let later := nextProvider plan.advance
        { later with consumed := slot :: later.consumed }
      | .modelMissing => ⟨[slot], .raised, plan.advance⟩
      | .allRateLimited =>
        if plan.state.numMatchingProviders = 1 then ⟨[slot], .none, plan.advance.recordLimited⟩
        else
          let later := nextProvider plan.advance.recordLimited
          { later with consumed := slot :: later.consumed }
      | .attempt attempt => ⟨[slot], .attempt attempt, plan.advance⟩
    else ⟨[], .raised, plan⟩
  else ⟨[], .none, plan⟩
termination_by plan.slotLimit - plan.state.index
decreasing_by all_goals
  show plan.slotLimit - (plan.state.index + 1) < plan.slotLimit - plan.state.index
  omega

/-! ### What a call consumes -/

/-- The plans have one ring, start and budget. -/
structure SameRing (plan plan' : RoutingPlan) : Prop where
  requestModelName : plan'.requestModelName = plan.requestModelName
  startIndex : plan'.startIndex = plan.startIndex
  matchingProviders : plan'.state.matchingProviders = plan.state.matchingProviders
  retryCount : plan'.state.retryCount = plan.state.retryCount

theorem SameRing.refl (plan : RoutingPlan) : SameRing plan plan := ⟨rfl, rfl, rfl, rfl⟩

theorem SameRing.trans {plan plan' plan'' : RoutingPlan} (first : SameRing plan plan')
    (second : SameRing plan' plan'') : SameRing plan plan'' where
  requestModelName := second.requestModelName.trans first.requestModelName
  startIndex := second.startIndex.trans first.startIndex
  matchingProviders := second.matchingProviders.trans first.matchingProviders
  retryCount := second.retryCount.trans first.retryCount

variable {plan plan' : RoutingPlan}

theorem SameRing.slotLimit (same : SameRing plan plan') :
    plan'.slotLimit = plan.slotLimit := by
  unfold RoutingPlan.slotLimit RoutingPlanState.numMatchingProviders
  rw [same.matchingProviders, same.retryCount]

/-- **The slots come in the order of the ring**, the first of them after `index` others. -/
def InRingOrder (plan : RoutingPlan) (index : ℕ) (slots : List Slot) : Prop :=
  ∀ number slot, slots[number]? = some slot →
    slot.place = ringPlace plan.state.matchingProviders.length plan.startIndex (index + number) ∧
      plan.state.matchingProviders[slot.place]? = some slot.provider

theorem inRingOrder_nil (plan : RoutingPlan) (index : ℕ) : InRingOrder plan index [] := by
  intro number slot found
  cases found

theorem InRingOrder.append {plan : RoutingPlan} {index : ℕ} {first second : List Slot}
    (inFirst : InRingOrder plan index first)
    (inSecond : InRingOrder plan (index + first.length) second) :
    InRingOrder plan index (first ++ second) := by
  intro number slot found
  rcases Nat.lt_or_ge number first.length with before | after
  · rw [List.getElem?_append_left before] at found
    exact inFirst number slot found
  · rw [List.getElem?_append_right after] at found
    have := inSecond _ slot found
    rwa [Nat.add_assoc, Nat.add_sub_cancel' after] at this

theorem InRingOrder.of_sameRing (same : SameRing plan plan')
    {index : ℕ} {slots : List Slot} (ordered : InRingOrder plan' index slots) :
    InRingOrder plan index slots := by
  unfold InRingOrder at ordered ⊢
  rwa [same.matchingProviders, same.startIndex] at ordered

/-- **What consuming slots does to a plan**. The ring and the budget are kept, and the cursor moves over
what is consumed. -/
structure Consumes (plan : RoutingPlan) (consumed : List Slot) (plan' : RoutingPlan) : Prop where
  sameRing : SameRing plan plan'
  index : plan'.state.index = plan.state.index + consumed.length
  withinLimit : plan.state.index ≤ plan.slotLimit → plan'.state.index ≤ plan.slotLimit
  ordered : InRingOrder plan plan.state.index consumed

theorem Consumes.nothing (sameRing : SameRing plan plan')
    (index : plan'.state.index = plan.state.index) : Consumes plan [] plan' :=
  ⟨sameRing, index, fun within => index ▸ within, inRingOrder_nil plan _⟩

/-- The slot at the cursor. -/
theorem Consumes.slot {slot : Slot} (sameRing : SameRing plan plan')
    (index : plan'.state.index = plan.state.index + 1) (inBudget : plan.state.index < plan.slotLimit)
    (place : slot.place = ringPlace plan.state.matchingProviders.length plan.startIndex
      plan.state.index)
    (provider : plan.state.matchingProviders[slot.place]? = some slot.provider) :
    Consumes plan [slot] plan' where
  sameRing := sameRing
  index := index
  withinLimit := fun _ => index ▸ inBudget
  ordered := by
    intro number other found
    cases number with
    | zero =>
      cases found
      exact ⟨place, provider⟩
    | succ number => cases found

theorem Consumes.append {plan plan' plan'' : RoutingPlan} {first second : List Slot}
    (before : Consumes plan first plan') (after : Consumes plan' second plan'') :
    Consumes plan (first ++ second) plan'' where
  sameRing := before.sameRing.trans after.sameRing
  index := by
    rw [after.index, before.index, List.length_append, Nat.add_assoc]
  withinLimit := by
    intro within
    have limit := after.withinLimit
    rw [before.sameRing.slotLimit] at limit
    exact limit (before.withinLimit within)
  ordered := by
    refine before.ordered.append ?_
    rw [← before.index]
    exact after.ordered.of_sameRing before.sameRing

/-- **One call of `next_provider`**, whatever the limits of the keys are. -/
theorem nextProvider_consumes (limits : KeyLimits) (plan : RoutingPlan) :
    Consumes plan (plan.nextProvider limits).consumed (plan.nextProvider limits).plan := by
  fun_induction nextProvider limits plan with
  | case1 plan inBudget nonempty currentIndex provider outcome slot _ later ih =>
    have here : Consumes plan [slot] plan.advance :=
      .slot ⟨rfl, rfl, rfl, rfl⟩ rfl inBudget rfl (List.getElem?_eq_getElem _)
    exact here.append ih
  | case2 plan inBudget nonempty currentIndex provider outcome slot =>
    exact Consumes.slot ⟨rfl, rfl, rfl, rfl⟩ rfl inBudget rfl (List.getElem?_eq_getElem _)
  | case3 plan inBudget nonempty currentIndex provider outcome slot =>
    exact Consumes.slot ⟨rfl, rfl, rfl, rfl⟩ rfl inBudget rfl (List.getElem?_eq_getElem _)
  | case4 plan inBudget nonempty currentIndex provider outcome slot _ _ later ih =>
    have here : Consumes plan [slot] plan.advance.recordLimited :=
      .slot ⟨rfl, rfl, rfl, rfl⟩ rfl inBudget rfl (List.getElem?_eq_getElem _)
    exact here.append ih
  | case5 plan inBudget nonempty currentIndex provider outcome slot attempt =>
    exact Consumes.slot ⟨rfl, rfl, rfl, rfl⟩ rfl inBudget rfl (List.getElem?_eq_getElem _)
  | case6 plan => exact Consumes.nothing (.refl plan) rfl
  | case7 plan => exact Consumes.nothing (.refl plan) rfl

theorem nextProvider_available (limits : KeyLimits) (plan : RoutingPlan) :
    (plan.nextProvider limits).plan.state.availableProviderNames =
      plan.state.availableProviderNames := by
  fun_induction nextProvider limits plan with
  | case1 plan inBudget nonempty currentIndex provider outcome slot _ later ih => exact ih
  | case4 plan inBudget nonempty currentIndex provider outcome slot _ _ later ih => exact ih
  | case2 | case3 | case5 | case6 | case7 => rfl

/-- An attempt is at a slot of an eligible provider that serves the model and has a free key. -/
theorem slotOutcome_eq_attempt {limits : KeyLimits} {plan : RoutingPlan} {provider : PlannedProvider}
    {attempt : ProviderAttempt} (outcome : slotOutcome limits plan provider = .attempt attempt) :
    attempt.provider = provider ∧ attempt.providerName = provider.provider ∧
      provider.provider ∈ plan.state.availableProviderNames := by
  unfold slotOutcome at outcome
  split at outcome
  · cases outcome
  · rename_i eligible
    split at outcome
    · cases outcome
    · split at outcome
      · cases outcome
      · cases outcome
        exact ⟨rfl, rfl, not_not.mp eligible⟩

/-- **What is returned is eligible**: it is the provider of the last slot that the call consumed. -/
theorem nextProvider_eligible (limits : KeyLimits) (plan : RoutingPlan) {attempt : ProviderAttempt}
    (returned : (plan.nextProvider limits).answer = .attempt attempt) :
    attempt.provider ∈ plan.state.matchingProviders ∧
      attempt.providerName = attempt.provider.provider ∧
      attempt.providerName ∈ plan.state.availableProviderNames := by
  fun_induction nextProvider limits plan with
  | case1 plan inBudget nonempty currentIndex provider outcome slot _ later ih => exact ih returned
  | case2 => cases returned
  | case3 => cases returned
  | case4 plan inBudget nonempty currentIndex provider outcome slot _ _ later ih => exact ih returned
  | case5 plan inBudget nonempty currentIndex provider outcome slot found isOutcome =>
    cases returned
    obtain ⟨same, named, eligible⟩ := slotOutcome_eq_attempt isOutcome
    refine ⟨?_, named.trans (by rw [same]), by rwa [named]⟩
    rw [same]
    exact List.get_mem _ _
  | case6 => cases returned
  | case7 => cases returned

end RoutingPlan

/-- The attempt that a slot became. -/
def Slot.attempted (slot : Slot) : Option ProviderAttempt :=
  match slot.outcome with
  | .attempt attempt => some attempt
  | .unavailable | .modelMissing | .allRateLimited => none

/-- The attempt that a call returned. -/
def NextAnswer.attempted : NextAnswer → Option ProviderAttempt
  | .attempt returned => some returned
  | .none | .raised => Option.none

namespace RoutingPlan

/-- **A call returns the attempt of a slot that it consumed**, and there is no other attempt among them. -/
theorem nextProvider_attempted (limits : KeyLimits) (plan : RoutingPlan) :
    (plan.nextProvider limits).consumed.filterMap Slot.attempted =
      (plan.nextProvider limits).answer.attempted.toList := by
  fun_induction nextProvider limits plan with
  | case1 plan inBudget nonempty currentIndex provider outcome slot isOutcome later ih =>
    have passed : slot.attempted = none := by
      unfold Slot.attempted
      rw [show slot.outcome = .unavailable from isOutcome]
    rw [List.filterMap_cons_none passed, ih]
  | case2 plan inBudget nonempty currentIndex provider outcome slot isOutcome =>
    have passed : slot.attempted = none := by
      unfold Slot.attempted
      rw [show slot.outcome = .modelMissing from isOutcome]
    rw [List.filterMap_cons_none passed]
    rfl
  | case3 plan inBudget nonempty currentIndex provider outcome slot isOutcome =>
    have passed : slot.attempted = none := by
      unfold Slot.attempted
      rw [show slot.outcome = .allRateLimited from isOutcome]
    rw [List.filterMap_cons_none passed]
    rfl
  | case4 plan inBudget nonempty currentIndex provider outcome slot isOutcome _ later ih =>
    have passed : slot.attempted = none := by
      unfold Slot.attempted
      rw [show slot.outcome = .allRateLimited from isOutcome]
    rw [List.filterMap_cons_none passed, ih]
  | case5 plan inBudget nonempty currentIndex provider outcome slot attempt isOutcome =>
    have returned : slot.attempted = some attempt := by
      unfold Slot.attempted
      rw [show slot.outcome = .attempt attempt from isOutcome]
    rw [List.filterMap_cons_some returned]
    rfl
  | case6 | case7 => rfl

/-! ### Runs -/

end RoutingPlan

/-- What happens to a plan: calls of `next_provider` and of `refresh_matching_providers`, and failures
that the caller records. -/
inductive PlanEvent where
  | next (limits : KeyLimits)
  | refresh (resolved : Option (List PlannedProvider))
  | failed (statusCode : ℤ) (errorMessage : String)

/-- A run: the slots that it consumed, the answers of its calls, and the plan after it. -/
structure PlanRun where
  consumed : List Slot
  answers : List NextAnswer
  plan : RoutingPlan

namespace RoutingPlan

/-- The run of a plan through events. -/
def run : RoutingPlan → List PlanEvent → PlanRun
  | plan, [] => ⟨[], [], plan⟩
  | plan, .next limits :: events =>
    let call := plan.nextProvider limits
    let later := run call.plan events
    ⟨call.consumed ++ later.consumed, call.answer :: later.answers, later.plan⟩
  | plan, .refresh resolved :: events => run (plan.refreshMatchingProviders resolved) events
  | plan, .failed statusCode errorMessage :: events =>
    run { plan with state := plan.state.recordFailure statusCode errorMessage } events

theorem refresh_sameRing (plan : RoutingPlan) (resolved : Option (List PlannedProvider)) :
    Consumes plan [] (plan.refreshMatchingProviders resolved) := by
  cases resolved with
  | none => exact .nothing (.refl plan) rfl
  | some providers => exact .nothing ⟨rfl, rfl, rfl, rfl⟩ rfl

/-- **The slots of a run**. -/
theorem run_consumes (plan : RoutingPlan) (events : List PlanEvent) :
    Consumes plan (plan.run events).consumed (plan.run events).plan := by
  induction events generalizing plan with
  | nil => exact .nothing (.refl plan) rfl
  | cons event events ih =>
    cases event with
    | next limits => exact (nextProvider_consumes limits plan).append (ih _)
    | refresh resolved => exact (refresh_sameRing plan resolved).append (ih _)
    | failed statusCode errorMessage =>
      have here : Consumes plan []
          { plan with state := plan.state.recordFailure statusCode errorMessage } :=
        .nothing ⟨rfl, rfl, rfl, rfl⟩ rfl
      exact here.append (ih _)

/-- What the calls of a run return are the attempts of its slots, in order. -/
theorem run_attempted (plan : RoutingPlan) (events : List PlanEvent) :
    (plan.run events).answers.filterMap NextAnswer.attempted =
      (plan.run events).consumed.filterMap Slot.attempted := by
  induction events generalizing plan with
  | nil => rfl
  | cons event events ih =>
    cases event with
    | next limits =>
      rw [run, List.filterMap_append, nextProvider_attempted, List.filterMap_cons, ih]
      cases (plan.nextProvider limits).answer <;> rfl
    | refresh resolved => exact ih _
    | failed statusCode errorMessage => exact ih _

/-! ### What is eligible -/

/-- The names that the latest refresh found eligible, and those at the start before any. -/
def latestEligible : List PyText → List PlanEvent → List PyText
  | names, [] => names
  | _, .refresh (some providers) :: events => latestEligible (providerNames providers) events
  | names, .refresh none :: events => latestEligible names events
  | names, .next _ :: events => latestEligible names events
  | names, .failed _ _ :: events => latestEligible names events

/-- **What a plan holds available was found eligible by the latest refresh**. -/
theorem run_available (plan : RoutingPlan) (events : List PlanEvent) {names : List PyText}
    (eligible : plan.state.availableProviderNames ⊆ names) :
    (plan.run events).plan.state.availableProviderNames ⊆ latestEligible names events := by
  induction events generalizing plan names with
  | nil => exact eligible
  | cons event events ih =>
    cases event with
    | next limits =>
      refine ih _ ?_
      rwa [nextProvider_available]
    | refresh resolved =>
      cases resolved with
      | none => exact ih plan eligible
      | some providers =>
        refine ih _ ?_
        intro name member
        exact of_decide_eq_true (List.mem_filter.mp member).2
    | failed statusCode errorMessage => exact ih _ eligible

/-! ### Runs in which no slot is passed over -/

/-- No provider of the ring is refreshed away, and no key is limited. -/
def KeepsWhole (ring : List PlannedProvider) : PlanEvent → Prop
  | .next limits => ∀ number name model, limits number name model = false
  | .refresh none => True
  | .refresh (some providers) => ∀ provider ∈ ring, provider.provider ∈ providerNames providers
  | .failed _ _ => True

/-- Every slot of the ring can become an attempt. -/
structure Whole (plan : RoutingPlan) : Prop where
  available : ∀ provider ∈ plan.state.matchingProviders,
    provider.provider ∈ plan.state.availableProviderNames
  serves : ∀ provider ∈ plan.state.matchingProviders,
    (provider.modelDictCache.lookup plan.requestModelName).isSome
  budgeted : plan.state.matchingProviders = [] → plan.state.retryCount = 0

/-- A slot of a whole plan becomes an attempt. -/
theorem slotOutcome_whole {limits : KeyLimits} {plan : RoutingPlan} (whole : Whole plan)
    (free : ∀ number name model, limits number name model = false) {provider : PlannedProvider}
    (member : provider ∈ plan.state.matchingProviders) :
    ∃ model, slotOutcome limits plan provider = .attempt ⟨provider, provider.provider, model⟩ := by
  obtain ⟨model, serves⟩ := Option.isSome_iff_exists.mp (whole.serves provider member)
  refine ⟨model, ?_⟩
  unfold slotOutcome
  rw [if_neg (not_not.mpr (whole.available provider member)), serves]
  simp only [free, Bool.false_eq_true, if_false]

/-- **A call on a whole plan** returns the provider at the cursor, or nothing at the end of the budget. -/
theorem nextProvider_whole {limits : KeyLimits} {plan : RoutingPlan} (whole : Whole plan)
    (free : ∀ number name model, limits number name model = false) :
    (plan.slotLimit ≤ plan.state.index ∧ plan.nextProvider limits = ⟨[], .none, plan⟩) ∨
      (plan.state.index < plan.slotLimit ∧ ∃ slot attempt, slot.attempted = some attempt ∧
        plan.nextProvider limits = ⟨[slot], .attempt attempt, plan.advance⟩) := by
  rcases Nat.lt_or_ge plan.state.index plan.slotLimit with inBudget | spent
  · refine .inr ⟨inBudget, ?_⟩
    have nonempty : 0 < plan.state.matchingProviders.length := by
      refine List.length_pos_iff.mpr fun empty => ?_
      unfold slotLimit RoutingPlanState.numMatchingProviders at inBudget
      rw [whole.budgeted empty, empty] at inBudget
      exact absurd inBudget (Nat.not_lt_zero _)
    obtain ⟨model, outcome⟩ := slotOutcome_whole whole free (List.get_mem plan.state.matchingProviders
      ⟨(plan.startIndex + plan.state.index) % _, Nat.mod_lt _ nonempty⟩)
    rw [nextProvider, if_pos inBudget, dif_pos nonempty]
    simp only [outcome]
    exact ⟨_, _, rfl, rfl⟩
  · refine .inl ⟨spent, ?_⟩
    rw [nextProvider, if_neg (Nat.not_lt.mpr spent)]

theorem Whole.advance {plan : RoutingPlan} (whole : Whole plan) : Whole plan.advance :=
  ⟨whole.available, whole.serves, whole.budgeted⟩

/-- A refresh that finds the whole ring eligible keeps it whole. -/
theorem Whole.refresh {plan : RoutingPlan} (whole : Whole plan)
    {resolved : Option (List PlannedProvider)}
    (keeps : KeepsWhole plan.state.matchingProviders (.refresh resolved)) :
    Whole (plan.refreshMatchingProviders resolved) := by
  cases resolved with
  | none => exact whole
  | some providers =>
    refine ⟨fun provider member => ?_, whole.serves, whole.budgeted⟩
    refine List.mem_filter.mpr ⟨List.mem_map_of_mem member, ?_⟩
    exact decide_eq_true (keeps provider member)

/-- **A run that keeps the ring whole** passes no slot over, and consumes one with every call until the
budget is spent. -/
theorem run_whole {plan : RoutingPlan} (whole : Whole plan) (events : List PlanEvent)
    (keeps : ∀ event ∈ events, KeepsWhole plan.state.matchingProviders event) :
    (∀ slot ∈ (plan.run events).consumed, slot.attempted.isSome) ∧
      (plan.run events).consumed.length =
        min (plan.run events).answers.length (plan.slotLimit - plan.state.index) := by
  induction events generalizing plan with
  | nil => exact ⟨fun slot member => absurd member List.not_mem_nil, (Nat.zero_min _).symm⟩
  | cons event events ih =>
    have here := keeps event List.mem_cons_self
    have later : ∀ event ∈ events, KeepsWhole plan.state.matchingProviders event :=
      fun event member => keeps event (List.mem_cons_of_mem _ member)
    cases event with
    | next limits =>
      rcases nextProvider_whole whole here with ⟨spent, stops⟩ | ⟨inBudget, slot, attempt, took, call⟩
      · obtain ⟨all, count⟩ := ih whole later
        rw [run, stops]
        refine ⟨all, ?_⟩
        show (plan.run events).consumed.length = min ((plan.run events).answers.length + 1) _
        rw [count]
        omega
      · obtain ⟨all, count⟩ := ih whole.advance later
        rw [run, call]
        constructor
        · intro other member
          rcases List.mem_cons.mp member with rfl | inLater
          · rw [took]
            rfl
          · exact all other inLater
        · show (plan.advance.run events).consumed.length + 1 =
            min ((plan.advance.run events).answers.length + 1) _
          rw [count]
          show min _ (plan.slotLimit - (plan.state.index + 1)) + 1 = _
          omega
    | refresh resolved =>
      have same := (refresh_sameRing plan resolved).sameRing
      have kept := ih (whole.refresh here) (by rwa [same.matchingProviders])
      rw [same.slotLimit, (refresh_sameRing plan resolved).index] at kept
      exact kept
    | failed statusCode errorMessage =>
      have recorded : Whole { plan with state := plan.state.recordFailure statusCode errorMessage } :=
        ⟨whole.available, whole.serves, whole.budgeted⟩
      exact ih recorded later

/-! ### Plans that were just made -/

/-- A plan at its start: no slot is consumed, and the whole ring is available. -/
structure AtStart (plan : RoutingPlan) : Prop where
  index : plan.state.index = 0
  available : ∀ name, name ∈ plan.state.availableProviderNames ↔
    name ∈ providerNames plan.state.matchingProviders
  budgeted : plan.state.matchingProviders = [] → plan.state.retryCount = 0

theorem create_atStart (itemsCount : PyText → ℕ) (lastProviderIndices : PyText → ℤ)
    (requestModelName : PyText) (schedulingAlgorithm : String)
    (matchingProviders : List PlannedProvider) :
    AtStart (create itemsCount lastProviderIndices requestModelName schedulingAlgorithm
      matchingProviders).1 where
  index := rfl
  available := fun name => Iff.rfl
  budgeted := by
    intro empty
    show computeRetryCount itemsCount matchingProviders = 0
    rw [show matchingProviders = [] from empty]
    rfl

theorem restrictToProvider_atStart {plan : RoutingPlan} (atStart : AtStart plan)
    (providerName : PyText) : AtStart (plan.restrictToProvider providerName).2 := by
  unfold restrictToProvider
  dsimp only
  split
  · exact atStart
  · rename_i nonempty
    refine ⟨rfl, fun name => ?_, fun _ => rfl⟩
    rw [List.mem_singleton]
    constructor
    · rintro rfl
      obtain ⟨provider, member⟩ := List.exists_mem_of_ne_nil _
        (fun empty => nonempty (List.isEmpty_iff.mpr empty))
      exact List.mem_map.mpr ⟨provider, member, of_decide_eq_true (List.mem_filter.mp member).2⟩
    · intro member
      obtain ⟨provider, inRing, rfl⟩ := List.mem_map.mp member
      exact of_decide_eq_true (List.mem_filter.mp inRing).2

/-- A plan as a request starts with it: made from what the resolver returned, and for a bound provider
restricted to that one. -/
def starting (itemsCount : PyText → ℕ) (lastProviderIndices : PyText → ℤ)
    (requestModelName : PyText) (schedulingAlgorithm : String)
    (matchingProviders : List PlannedProvider) (bound : Option PyText) : RoutingPlan :=
  let plan := (create itemsCount lastProviderIndices requestModelName schedulingAlgorithm
    matchingProviders).1
  match bound with
  | none => plan
  | some providerName => (plan.restrictToProvider providerName).2

variable (itemsCount : PyText → ℕ) (lastProviderIndices : PyText → ℤ) (requestModelName : PyText)
  (schedulingAlgorithm : String) (matchingProviders : List PlannedProvider) (bound : Option PyText)

theorem starting_atStart : AtStart (starting itemsCount lastProviderIndices requestModelName
    schedulingAlgorithm matchingProviders bound) := by
  have made := create_atStart itemsCount lastProviderIndices requestModelName schedulingAlgorithm
    matchingProviders
  cases bound with
  | none => exact made
  | some providerName => exact restrictToProvider_atStart made providerName

/-- **The ring law.** In every run of a plan, with any answers of the resolver and any limits of the keys:
the slots come in the order of the ring from its start; no more of them than the ring and the budget have
are consumed; what the calls return are the attempts of those slots, and each is of a provider of the
ring that the latest refresh found eligible; and where every provider of the ring serves the model, while
none is refreshed away and no key is limited, no slot is passed over, and no place comes again before
every place of the ring came. -/
theorem ring_law (events : List PlanEvent) :
    let plan := starting itemsCount lastProviderIndices requestModelName schedulingAlgorithm
      matchingProviders bound
    let ring := plan.state.matchingProviders
    let run := plan.run events
    (∀ (k : ℕ) (slot : Slot), run.consumed[k]? = some slot →
      slot.place = (plan.startIndex + k) % ring.length ∧ ring[slot.place]? = some slot.provider) ∧
    run.consumed.length ≤ ring.length + plan.state.retryCount ∧
    run.answers.filterMap NextAnswer.attempted = run.consumed.filterMap Slot.attempted ∧
    (∀ limits attempt, (run.plan.nextProvider limits).answer = .attempt attempt →
      attempt.provider ∈ ring ∧ attempt.providerName = attempt.provider.provider ∧
        attempt.providerName ∈ latestEligible (providerNames ring) events) ∧
    ((∀ event ∈ events, KeepsWhole ring event) →
      (∀ provider ∈ ring, (provider.modelDictCache.lookup plan.requestModelName).isSome) →
      (∀ slot ∈ run.consumed, slot.attempted.isSome) ∧
        run.consumed.length =
          min run.answers.length (ring.length + plan.state.retryCount) ∧
        ∀ (i j : ℕ) (slot slot' : Slot), i < j → run.consumed[i]? = some slot → run.consumed[j]? = some slot' →
          slot.place = slot'.place →
          ∀ place < ring.length, ∃ k < j, ∃ earlier : Slot, run.consumed[k]? = some earlier ∧
            earlier.place = place) := by
  intro plan ring run
  have atStart : AtStart plan := starting_atStart itemsCount lastProviderIndices requestModelName
    schedulingAlgorithm matchingProviders bound
  have moves : Consumes plan run.consumed run.plan := run_consumes plan events
  have places : ∀ k slot, run.consumed[k]? = some slot →
      slot.place = ringPlace ring.length plan.startIndex k ∧
        ring[slot.place]? = some slot.provider := by
    intro k slot found
    have ordered := moves.ordered k slot found
    rwa [atStart.index, Nat.zero_add] at ordered
  refine ⟨places, ?_, run_attempted plan events, ?_, ?_⟩
  · have within := moves.withinLimit (by rw [atStart.index]; exact Nat.zero_le _)
    rwa [moves.index, atStart.index, Nat.zero_add] at within
  · intro limits attempt returned
    obtain ⟨inRing, named, eligible⟩ := nextProvider_eligible limits run.plan returned
    rw [moves.sameRing.matchingProviders] at inRing
    refine ⟨inRing, named, run_available plan events ?_ eligible⟩
    exact fun name member => (atStart.available name).mp member
  · intro keeps serves
    have whole : Whole plan :=
      ⟨fun provider member => (atStart.available _).mpr (List.mem_map_of_mem member), serves,
        atStart.budgeted⟩
    obtain ⟨all, count⟩ := run_whole whole events keeps
    rw [atStart.index] at count
    refine ⟨all, count, ?_⟩
    intro i j slot slot' later first second same place isPlace
    rw [(places i slot first).1, (places j slot' second).1] at same
    obtain ⟨k, before, here⟩ := ringPlace_before_repeat later same isPlace
    have inRun : k < run.consumed.length :=
      before.trans (List.getElem?_eq_some_iff.mp second).1
    have found := List.getElem?_eq_getElem inRun
    exact ⟨k, before, run.consumed[k], found, (places k _ found).1.trans here⟩

/-- Two providers that serve the model. -/
def twoPlanned : List PlannedProvider := [⟨[97], [([109], [109])]⟩, ⟨[98], [([109], [110])]⟩]

/-- Three calls, with a refresh and a failure between them. -/
def threeCalls : List PlanEvent :=
  [.next fun _ _ _ => false, .refresh (some twoPlanned.reverse), .next fun _ _ _ => false,
    .failed 500 "", .next fun _ _ _ => false]

/-- Three calls that pass no slot over: the third one comes to the place of the first. -/
theorem ring_law_three :
    let run := (starting (fun _ => 1) (fun _ => 0) [109] "round_robin" twoPlanned none).run threeCalls
    run.consumed.length = 3 ∧ (∀ slot ∈ run.consumed, slot.attempted.isSome) ∧
      run.consumed.map Slot.place = [1, 0, 1] := by
  intro run
  obtain ⟨places, -, -, -, whole⟩ :=
    ring_law (fun _ => 1) (fun _ => 0) [109] "round_robin" twoPlanned none threeCalls
  obtain ⟨attempted, count, -⟩ := whole
    (by simp [threeCalls, KeepsWhole, twoPlanned, starting, create, providerNames]) (by decide)
  have three : run.consumed.length = 3 := count
  refine ⟨three, attempted, List.ext_getElem (by simp [three]) fun k inRun inThree => ?_⟩
  have early : k = 0 ∨ k = 1 ∨ k = 2 := by
    have before : k < 3 := inThree
    omega
  rw [List.getElem_map, (places k _ (List.getElem?_eq_getElem _)).1]
  rcases early with rfl | rfl | rfl <;> rfl

end RoutingPlan

end UniApi.Routing
