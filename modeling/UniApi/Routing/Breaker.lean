/-
**`ProviderModelCircuitBreaker`: the breaker with all its routes.**

The breaker keeps a state for each route of a provider and a model that has failed. Every call prunes the
state of its route first, also the calls that only look: they close an expired circuit, forget old
failures, and drop a state with nothing left in it.

* `prune_prune`: pruning early changes nothing that pruning later would leave;
* `alike_perform`: two breakers that differ by pending pruning answer alike, and stay so;
* `observations_silent`: looking at a breaker does not change what it decides.
-/

import Mathlib.Algebra.Order.Ring.Rat
import Mathlib.Data.List.Pairwise
import Mathlib.Tactic.NormNum
import UniApi.Lib.Dict
import UniApi.Lib.PyText

namespace UniApi.Routing.Breaker

open UniApi.Lib

/-! ### The breaker -/

/-- How many failures in a window open a circuit, and for how long. The constructor refuses anything that
is not positive. -/
structure BreakerSettings where
  failureThreshold : ℕ
  failureWindowSeconds : ℚ
  openSeconds : ℚ
  threshold_pos : 0 < failureThreshold
  window_pos : 0 < failureWindowSeconds
  open_pos : 0 < openSeconds

/-- `_RouteState`. -/
structure RouteState where
  failures : List (ℚ × ℤ) := []
  openUntil : ℚ := 0
  openedTotal : ℕ := 0
  lastStatusCode : Option ℤ := none

/-- A provider and a model. -/
abbrev Route := PyText × PyText

structure ProviderModelCircuitBreaker where
  states : Dict Route RouteState
  failureTotal : ℤ → ℕ
  openedTotal : ℕ
  successResetTotal : ℕ

/-- `_key`. -/
def routeKey (provider model : Option PyText) : Route :=
  (PyText.strip (provider.getD []), PyText.strip (model.getD []))

/-- `all(key)`. -/
def named (key : Route) : Bool := !key.1.isEmpty && !key.2.isEmpty

section Calls

variable (settings : BreakerSettings)

/-- `_prune_locked`. -/
def prune (state : RouteState) (now : ℚ) : RouteState :=
  let kept := { state with
    failures := state.failures.dropWhile fun failure => failure.1 < now - settings.failureWindowSeconds }
  if kept.openUntil ≠ 0 ∧ kept.openUntil ≤ now then { kept with openUntil := 0, failures := [] }
  else kept

/-- A state in which nothing is left. -/
def RouteState.vacant (state : RouteState) : Bool := state.failures.isEmpty && state.openUntil == 0

namespace ProviderModelCircuitBreaker

/-- `record_failure`, and what it leaves. -/
def recordFailure (breaker : ProviderModelCircuitBreaker) (now : ℚ) (provider model : Option PyText)
    (statusCode : ℤ) : Bool × ProviderModelCircuitBreaker :=
  if statusCode = 403 ∨ statusCode = 404 then
    let key := routeKey provider model
    if named key then
      let pruned := prune settings ((breaker.states.get key).getD {}) now
      let state := { pruned with
        lastStatusCode := some statusCode
        failures := pruned.failures ++ [(now, statusCode)] }
      let failureTotal := fun status =>
        if status = statusCode then breaker.failureTotal status + 1 else breaker.failureTotal status
      if now < state.openUntil ∨ state.failures.length < settings.failureThreshold then
        (false, { breaker with states := breaker.states.set key state, failureTotal := failureTotal })
      else
        let opened := { state with
          openUntil := now + settings.openSeconds
          openedTotal := state.openedTotal + 1 }
        (true, { breaker with
          states := breaker.states.set key opened
          failureTotal := failureTotal
          openedTotal := breaker.openedTotal + 1 })
    else (false, breaker)
  else (false, breaker)

/-- `record_success`. -/
def recordSuccess (breaker : ProviderModelCircuitBreaker) (provider model : Option PyText) :
    Bool × ProviderModelCircuitBreaker :=
  let key := routeKey provider model
  if named key then
    match breaker.states.get key with
    | none => (false, breaker)
    | some _ => (true, { breaker with
        states := breaker.states.pop key
        successResetTotal := breaker.successResetTotal + 1 })
  else (false, breaker)

/-- `is_open`. -/
def isOpen (breaker : ProviderModelCircuitBreaker) (now : ℚ) (provider model : Option PyText) :
    Bool × ProviderModelCircuitBreaker :=
  let key := routeKey provider model
  if named key then
    match breaker.states.get key with
    | none => (false, breaker)
    | some state =>
      let state := prune settings state now
      if state.vacant then (false, { breaker with states := breaker.states.pop key })
      else (decide (now < state.openUntil), { breaker with states := breaker.states.set key state })
  else (false, breaker)

/-- An open route in a snapshot. -/
structure OpenRoute where
  routeFingerprint : PyText
  remainingOpenMs : ℤ
  lastStatusCode : Option ℤ
  failuresInWindow : ℕ
  openedTotal : ℕ

structure Snapshot where
  failureThreshold : ℕ
  failureWindowSeconds : ℚ
  openSeconds : ℚ
  openRoutes : List OpenRoute
  openRouteCount : ℕ
  failureTotalByStatus : ℤ → ℕ
  openedTotal : ℕ
  successResetTotal : ℕ

/-- What becomes of a state in a snapshot. -/
def keepPruned (now : ℚ) (state : RouteState) : Option RouteState :=
  let state := prune settings state now
  if state.vacant then none else some state

/-- `snapshot`. The fingerprint is the start of a hash of the route. -/
def snapshot (fingerprint : Route → PyText) (breaker : ProviderModelCircuitBreaker) (now : ℚ) :
    Snapshot × ProviderModelCircuitBreaker :=
  let states := breaker.states.filterMap (keepPruned settings now)
  let openRoutes := (states.entries.filter fun entry => now < entry.2.openUntil).map fun entry =>
    { routeFingerprint := fingerprint entry.1
      remainingOpenMs := max 0 (Int.tdiv ((entry.2.openUntil - now) * 1000).num
        ((entry.2.openUntil - now) * 1000).den)
      lastStatusCode := entry.2.lastStatusCode
      failuresInWindow := entry.2.failures.length
      openedTotal := entry.2.openedTotal }
  ({ failureThreshold := settings.failureThreshold
     failureWindowSeconds := settings.failureWindowSeconds
     openSeconds := settings.openSeconds
     openRoutes := openRoutes.take 64
     openRouteCount := openRoutes.length
     failureTotalByStatus := breaker.failureTotal
     openedTotal := breaker.openedTotal
     successResetTotal := breaker.successResetTotal },
    { breaker with states := states })

end ProviderModelCircuitBreaker

end Calls

/-! ### Histories -/

/-- A call on the breaker. -/
inductive BreakerCall where
  | recordFailure (provider model : Option PyText) (statusCode : ℤ)
  | recordSuccess (provider model : Option PyText)
  | isOpen (provider model : Option PyText)
  | snapshot

/-- The calls that only look. -/
def BreakerCall.looks : BreakerCall → Bool
  | .isOpen _ _ | .snapshot => true
  | _ => false

/-- A call at an instant, which may have been added to a history. -/
structure TimedCall where
  time : ℚ
  call : BreakerCall
  added : Bool := false

variable (settings : BreakerSettings) (fingerprint : Route → PyText)

/-- A call, and what it decides: whether a failure opened the circuit, and whether the circuit is open. -/
def perform (breaker : ProviderModelCircuitBreaker) (now : ℚ) :
    BreakerCall → Option Bool × ProviderModelCircuitBreaker
  | .recordFailure provider model statusCode =>
    let (opened, after) := breaker.recordFailure settings now provider model statusCode
    (some opened, after)
  | .recordSuccess provider model => (none, (breaker.recordSuccess provider model).2)
  | .isOpen provider model =>
    let (isOpen, after) := breaker.isOpen settings now provider model
    (some isOpen, after)
  | .snapshot => (none, (breaker.snapshot settings fingerprint now).2)

/-- What the calls of a history decide, without those that were added. -/
def decisions : ProviderModelCircuitBreaker → List TimedCall → List (Option Bool)
  | _, [] => []
  | breaker, timed :: rest =>
    let (decision, after) := perform settings fingerprint breaker timed.time timed.call
    if timed.added then decisions after rest else decision :: decisions after rest

/-! ### Pruning -/

section Pruning

variable {settings}

/-- **Pruning early** changes nothing that pruning later leaves. -/
theorem prune_prune (state : RouteState) {now later : ℚ} (onward : now ≤ later) :
    prune settings (prune settings state now) later = prune settings state later := by
  have cutoff : ∀ failures : List (ℚ × ℤ),
      (failures.dropWhile fun failure => failure.1 < now - settings.failureWindowSeconds).dropWhile
          (fun failure => failure.1 < later - settings.failureWindowSeconds) =
        failures.dropWhile fun failure => failure.1 < later - settings.failureWindowSeconds := by
    intro failures
    induction failures with
    | nil => rfl
    | cons failure rest ih =>
      by_cases old : failure.1 < now - settings.failureWindowSeconds
      · have older : failure.1 < later - settings.failureWindowSeconds :=
          old.trans_le (sub_le_sub_right onward _)
        rw [List.dropWhile_cons_of_pos (by simpa using old), ih,
          List.dropWhile_cons_of_pos (by simpa using older)]
      · rw [List.dropWhile_cons_of_neg (by simpa using old)]
  obtain ⟨failures, openUntil, openedTotal, lastStatusCode⟩ := state
  unfold prune
  dsimp only
  by_cases expired : openUntil ≠ 0 ∧ openUntil ≤ now
  · have expiredLater := expired.2.trans onward
    rw [if_pos expired]
    simp [expired.1, expiredLater]
  · rw [if_neg expired]
    dsimp only
    rw [cutoff]

/-- What a call finds for a route. -/
def pruned (settings : BreakerSettings) (now : ℚ) (breaker : ProviderModelCircuitBreaker) (key : Route) :
    List (ℚ × ℤ) × ℚ :=
  let state := prune settings ((breaker.states.get key).getD {}) now
  (state.failures, state.openUntil)

/-- **Two breakers that differ by pending pruning.** -/
def Alike (settings : BreakerSettings) (now : ℚ) (first second : ProviderModelCircuitBreaker) : Prop :=
  ∀ key, pruned settings now first key = pruned settings now second key

theorem prune_absent (now : ℚ) : prune settings {} now = {} := by
  simp [prune]

theorem prune_congr {first second : RouteState} (failures : first.failures = second.failures)
    (openUntil : first.openUntil = second.openUntil) (now : ℚ) :
    ((prune settings first now).failures, (prune settings first now).openUntil) =
      ((prune settings second now).failures, (prune settings second now).openUntil) := by
  unfold prune
  dsimp only
  rw [failures, openUntil]
  split <;> rfl

variable {first second : ProviderModelCircuitBreaker}

theorem Alike.later {now later : ℚ}
    (alike : Alike settings now first second) (onward : now ≤ later) :
    Alike settings later first second := by
  intro key
  have same := alike key
  simp only [pruned, Prod.mk.injEq] at same
  have both := @prune_congr settings _ _ same.1 same.2 later
  rw [prune_prune _ onward, prune_prune _ onward] at both
  exact both

theorem pruned_set (now : ℚ) (breaker : ProviderModelCircuitBreaker) (key other : Route)
    (state : RouteState) {breaker' : ProviderModelCircuitBreaker}
    (changed : breaker'.states = breaker.states.set key state) :
    pruned settings now breaker' other =
      if other = key then ((prune settings state now).failures, (prune settings state now).openUntil)
      else pruned settings now breaker other := by
  unfold pruned
  rw [changed, Dict.get_set]
  split <;> rfl

theorem pruned_pop (now : ℚ) (breaker : ProviderModelCircuitBreaker) (key other : Route)
    {breaker' : ProviderModelCircuitBreaker} (changed : breaker'.states = breaker.states.pop key) :
    pruned settings now breaker' other =
      if other = key then ([], 0) else pruned settings now breaker other := by
  unfold pruned
  rw [changed, Dict.get_pop]
  split
  · rw [Option.getD_none, prune_absent]
  · rfl

theorem pruned_vacant {now : ℚ} {breaker : ProviderModelCircuitBreaker} {key : Route} {state : RouteState}
    (found : breaker.states.get key = some state) (vacant : (prune settings state now).vacant = true) :
    pruned settings now breaker key = ([], 0) := by
  unfold pruned
  simp only [RouteState.vacant, Bool.and_eq_true, List.isEmpty_iff, beq_iff_eq] at vacant
  rw [found, Option.getD_some]
  exact Prod.ext vacant.1 vacant.2

/-- **Looking** tells what pruning leaves, and leaves what it would leave. -/
theorem isOpen_spec (breaker : ProviderModelCircuitBreaker) (now : ℚ) (provider model : Option PyText) :
    (breaker.isOpen settings now provider model).1 =
        (named (routeKey provider model) &&
          let (failures, openUntil) := pruned settings now breaker (routeKey provider model)
          !(failures.isEmpty && openUntil == 0) && decide (now < openUntil)) ∧
      Alike settings now (breaker.isOpen settings now provider model).2 breaker := by
  unfold ProviderModelCircuitBreaker.isOpen
  dsimp only
  split
  · rename_i isNamed
    rw [isNamed, Bool.true_and]
    cases found : breaker.states.get (routeKey provider model) with
    | none =>
      have nothing : pruned settings now breaker (routeKey provider model) = ([], 0) := by
        rw [pruned, found, Option.getD_none, prune_absent]
      rw [nothing]
      exact ⟨rfl, fun key => rfl⟩
    | some state =>
      dsimp only
      split
      · rename_i vacant
        have nothing := pruned_vacant found vacant
        rw [nothing]
        refine ⟨rfl, fun key => ?_⟩
        rw [pruned_pop now breaker _ key rfl]
        split
        · rename_i same
          rw [same, nothing]
        · rfl
      · rename_i standing
        have seen : pruned settings now breaker (routeKey provider model) =
            ((prune settings state now).failures, (prune settings state now).openUntil) := by
          rw [pruned, found, Option.getD_some]
        rw [seen]
        refine ⟨?_, fun key => ?_⟩
        · rw [RouteState.vacant, Bool.not_eq_true] at standing
          rw [standing]
          rfl
        · rw [pruned_set now breaker _ key _ rfl, prune_prune state le_rfl]
          split
          · rename_i same
            rw [same, seen]
          · rfl
  · rename_i unnamed
    rw [Bool.not_eq_true] at unnamed
    rw [unnamed]
    exact ⟨rfl, fun key => rfl⟩

/-- **A snapshot** leaves what pruning would leave. -/
theorem snapshot_alike (breaker : ProviderModelCircuitBreaker) (now : ℚ) :
    Alike settings now (breaker.snapshot settings fingerprint now).2 breaker := by
  intro key
  have looked : (breaker.snapshot settings fingerprint now).2.states.get key =
      (breaker.states.get key).bind (ProviderModelCircuitBreaker.keepPruned settings now) :=
    Dict.get_filterMap _ _ key
  rw [pruned, looked]
  cases found : breaker.states.get key with
  | none =>
    rw [pruned, found]
    rfl
  | some state =>
    rw [Option.bind_some, ProviderModelCircuitBreaker.keepPruned]
    split
    · rename_i vacant
      rw [pruned_vacant found vacant, Option.getD_none, prune_absent]
    · rw [Option.getD_some, prune_prune state le_rfl, pruned, found, Option.getD_some]

/-- **A failure** is recorded alike in breakers that are alike. -/
theorem recordFailure_alike {now : ℚ}
    (alike : Alike settings now first second) (provider model : Option PyText) (statusCode : ℤ) :
    (first.recordFailure settings now provider model statusCode).1 =
        (second.recordFailure settings now provider model statusCode).1 ∧
      Alike settings now (first.recordFailure settings now provider model statusCode).2
        (second.recordFailure settings now provider model statusCode).2 := by
  have same := alike (routeKey provider model)
  simp only [pruned, Prod.mk.injEq] at same
  have stays : ∀ {state state' : RouteState} {after after' : ProviderModelCircuitBreaker},
      after.states = first.states.set (routeKey provider model) state →
      after'.states = second.states.set (routeKey provider model) state' →
      state.failures = state'.failures → state.openUntil = state'.openUntil →
        Alike settings now after after' := by
    intro state state' after after' changed changed' failures openUntil key
    rw [pruned_set now first _ key _ changed, pruned_set now second _ key _ changed',
      prune_congr failures openUntil, alike key]
  unfold ProviderModelCircuitBreaker.recordFailure
  dsimp only
  split
  · split
    · rw [same.1, same.2]
      split
      · exact ⟨rfl, stays rfl rfl rfl rfl⟩
      · exact ⟨rfl, stays rfl rfl rfl rfl⟩
    · exact ⟨rfl, alike⟩
  · exact ⟨rfl, alike⟩

/-- **A success** forgets a route alike. -/
theorem recordSuccess_alike {now : ℚ}
    (alike : Alike settings now first second) (provider model : Option PyText) :
    Alike settings now (first.recordSuccess provider model).2 (second.recordSuccess provider model).2 := by
  have forgets : ∀ breaker : ProviderModelCircuitBreaker, named (routeKey provider model) = true →
      ∀ key, pruned settings now (breaker.recordSuccess provider model).2 key =
        if key = routeKey provider model then ([], 0) else pruned settings now breaker key := by
    intro breaker isNamed key
    unfold ProviderModelCircuitBreaker.recordSuccess
    dsimp only
    rw [if_pos isNamed]
    cases found : breaker.states.get (routeKey provider model) with
    | none =>
      show pruned settings now breaker key = _
      by_cases same : key = routeKey provider model
      · rw [if_pos same, same, pruned, found, Option.getD_none, prune_absent]
      · rw [if_neg same]
    | some state => exact pruned_pop now breaker _ key rfl
  intro key
  cases isNamed : named (routeKey provider model) with
  | true => rw [forgets first isNamed, forgets second isNamed, alike key]
  | false =>
    unfold ProviderModelCircuitBreaker.recordSuccess
    simp only [isNamed, Bool.false_eq_true, if_false]
    exact alike key

end Pruning

/-! ### Looking is silent -/

section Silent

variable {settings fingerprint}

/-- **A call** decides alike on breakers that are alike, and leaves them alike. -/
theorem alike_perform {now : ℚ} {first second : ProviderModelCircuitBreaker}
    (alike : Alike settings now first second) (call : BreakerCall) :
    (perform settings fingerprint first now call).1 = (perform settings fingerprint second now call).1 ∧
      Alike settings now (perform settings fingerprint first now call).2
        (perform settings fingerprint second now call).2 := by
  cases call with
  | recordFailure provider model statusCode =>
    obtain ⟨decision, after⟩ := recordFailure_alike alike provider model statusCode
    exact ⟨congrArg some decision, after⟩
  | recordSuccess provider model => exact ⟨rfl, recordSuccess_alike alike provider model⟩
  | isOpen provider model =>
    obtain ⟨sees, leaves⟩ := @isOpen_spec settings first now provider model
    obtain ⟨sees', leaves'⟩ := @isOpen_spec settings second now provider model
    refine ⟨congrArg some ?_, fun key => ?_⟩
    · show (first.isOpen settings now provider model).1 = (second.isOpen settings now provider model).1
      rw [sees, sees', alike]
    · exact (leaves key).trans ((alike key).trans (leaves' key).symm)
  | snapshot =>
    refine ⟨rfl, fun key => ?_⟩
    exact (snapshot_alike fingerprint first now key).trans
      ((alike key).trans (snapshot_alike fingerprint second now key).symm)

/-- **A call that only looks** leaves a breaker alike. -/
theorem looks_alike {call : BreakerCall} (looks : call.looks = true) (now : ℚ)
    (breaker : ProviderModelCircuitBreaker) :
    Alike settings now (perform settings fingerprint breaker now call).2 breaker := by
  cases call with
  | recordFailure => cases looks
  | recordSuccess => cases looks
  | isOpen provider model => exact (isOpen_spec breaker now provider model).2
  | snapshot => exact snapshot_alike fingerprint breaker now

theorem decisions_alike {history : List TimedCall} (ordered : (history.map (·.time)).Pairwise (· ≤ ·))
    (onlyLooks : ∀ timed ∈ history, timed.added = true → timed.call.looks = true) {now : ℚ}
    (onward : ∀ timed ∈ history, now ≤ timed.time) {first second : ProviderModelCircuitBreaker}
    (alike : Alike settings now first second) :
    decisions settings fingerprint first history =
      decisions settings fingerprint second (history.filter fun timed => !timed.added) := by
  induction history generalizing now first second with
  | nil => rfl
  | cons timed rest ih =>
    rw [List.map_cons, List.pairwise_cons] at ordered
    have here : Alike settings timed.time first second :=
      alike.later (onward timed List.mem_cons_self)
    have behind : ∀ later ∈ rest, timed.time ≤ later.time :=
      fun later there => ordered.1 later.time (List.mem_map_of_mem there)
    have restLooks : ∀ later ∈ rest, later.added = true → later.call.looks = true :=
      fun later there => onlyLooks later (List.mem_cons_of_mem _ there)
    cases added : timed.added with
    | true =>
      rw [List.filter_cons, if_neg (by simp [added]), decisions, added]
      have silent := @looks_alike settings fingerprint timed.call
        (onlyLooks timed List.mem_cons_self added) timed.time first
      exact ih ordered.2 restLooks behind fun key => (silent key).trans (here key)
    | false =>
      rw [List.filter_cons, if_pos (by simp [added]), decisions, decisions, added]
      obtain ⟨decision, after⟩ := @alike_perform settings fingerprint _ _ _ here timed.call
      exact congrArg₂ List.cons decision (ih ordered.2 restLooks behind after)

/-- **Looking is silent**: calls of `is_open` and `snapshot` that are added to a history anywhere do not
change what the other calls decide. -/
theorem observations_silent (settings : BreakerSettings) (fingerprint : Route → PyText)
    (breaker : ProviderModelCircuitBreaker) (history : List TimedCall)
    (ordered : (history.map (·.time)).Pairwise (· ≤ ·))
    (onlyLooks : ∀ timed ∈ history, timed.added = true → timed.call.looks = true) :
    decisions settings fingerprint breaker history =
      decisions settings fingerprint breaker (history.filter fun timed => !timed.added) := by
  cases history with
  | nil => rfl
  | cons timed rest =>
    rw [List.map_cons, List.pairwise_cons] at ordered
    refine @decisions_alike settings fingerprint _ (by simpa using ordered) onlyLooks timed.time ?_ _ _
      fun key => rfl
    intro later there
    rcases List.mem_cons.mp there with rfl | behind
    · exact le_rfl
    · exact ordered.1 later.time (List.mem_map_of_mem behind)

/-- Two failures open a circuit for a minute. -/
def minute : BreakerSettings := ⟨2, 120, 60, by decide, by norm_num, by norm_num⟩

/-- A breaker without states. -/
def fresh : ProviderModelCircuitBreaker := ⟨.empty, fun _ => 0, 0, 0⟩

/-- A route that opens with its second failure, with two looks added. -/
def watched : List TimedCall :=
  let provider := some (Utf8.points "codex")
  let model := some (Utf8.points "gpt")
  [⟨0, .recordFailure provider model 404, false⟩, ⟨1, .snapshot, true⟩,
    ⟨2, .recordFailure provider model 403, false⟩, ⟨130, .isOpen provider model, true⟩,
    ⟨131, .recordFailure provider model 404, false⟩]

theorem observations_silent_watched :
    decisions minute Prod.fst fresh watched =
      decisions minute Prod.fst fresh (watched.filter fun timed => !timed.added) :=
  observations_silent minute Prod.fst fresh watched
    (by unfold watched; simp only [List.map_cons, List.map_nil, List.pairwise_cons]; norm_num)
    (by unfold watched; simp [BreakerCall.looks])

end Silent

end UniApi.Routing.Breaker
