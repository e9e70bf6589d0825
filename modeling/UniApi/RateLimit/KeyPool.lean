/-
**`ProviderKeyPool.next`: the rotation of the keys of a provider.**

A pool keeps its keys, a cursor, and the limiter of its keys. `next` probes the keys from the cursor on,
once round at most, and takes the first one that is not limited. Probing prunes windows, and the probe
that finds the key also records the request.

* `Unpruned.probe_limited`: a key that is limited leaves the limiter as it was, up to pruning;
* `Unpruned.limited_iff`: pruning does not change which keys are limited;
* `next_rotates`: `next` raises if every key is limited, and otherwise takes the first key in cyclic order
  that is not, moves the cursor behind it, and records one request for it.
-/

import UniApi.Lib.RingCursor
import UniApi.RateLimit.State

namespace UniApi.RateLimit.KeyPool

open UniApi.Lib

/-! ### The pool -/

inductive ScheduleAlgorithm where
  | roundRobin
  | random
  | fixedPriority
  | smartRoundRobin
  deriving DecidableEq

/-- `HTTPException`. -/
structure HttpException where
  statusCode : ℕ
  detail : String
  deriving DecidableEq

def tooManyRequests : HttpException := ⟨429, "Too many requests"⟩

/-- What a pool keeps for `next`. The cursor is within the keys: it starts at the first, is moved within
them, and is set back when the keys are replaced. -/
structure ProviderKeyPool where
  items : List PyText
  scheduleAlgorithm : ScheduleAlgorithm
  index : ℕ
  state : RateLimitState
  policy : RateLimitPolicy
  inRange : items ≠ [] → index < items.length

/-- What `next` does: its outcome, the cursor and the limiter it leaves, and whether it starts a task that
will reorder the keys. -/
structure Rotation where
  outcome : Except HttpException PyText
  index : ℕ
  state : RateLimitState
  triggersReorder : Bool := false

section Next

variable (items : List PyText) (policy : RateLimitPolicy) (model : Option PyText) (now : ℚ)

/-- The loop of `next`, for so many keys. -/
def probeFrom (startIndex : ℕ) : ℕ → ℕ → RateLimitState → Option Rotation
  | 0, _, _ => none
  | fuel + 1, index, state =>
    let item := items.getD index []
    let index := (index + 1) % items.length
    let (limited, state) := state.isRateLimited now item model policy true
    if !limited then some ⟨.ok item, index, state, false⟩
    else if index = startIndex then some ⟨.error tooManyRequests, index, state, false⟩
    else probeFrom startIndex fuel index state

end Next

namespace ProviderKeyPool

variable (pool : ProviderKeyPool) (model : Option PyText) (now : ℚ)

/-- The cursor that the loop starts with. -/
def startIndex : ℕ := if pool.scheduleAlgorithm = .fixedPriority then 0 else pool.index

/-- A smart rotation has its keys reordered at the last one. -/
def triggersReorder : Bool :=
  pool.scheduleAlgorithm = .smartRoundRobin && pool.startIndex == pool.items.length - 1

/-- `next`. The loop ends within as many probes as there are keys. -/
def next : Option Rotation :=
  if pool.items.isEmpty then some ⟨.error tooManyRequests, pool.index, pool.state, false⟩
  else
    (probeFrom pool.items pool.policy model now pool.startIndex pool.items.length pool.startIndex
      pool.state).map fun rotation => { rotation with triggersReorder := pool.triggersReorder }

end ProviderKeyPool

/-! ### Probing a key -/

/-- The records of a window that still count. -/
def unexpired (now : ℚ) (period : ℤ) (window : List ℚ) : List ℚ :=
  window.filter fun record => now - period < record

/-- **Two limiters that differ by pending pruning.** -/
structure Unpruned (now : ℚ) (before after : RateLimitState) : Prop where
  cooling : after.coolingUntil = before.coolingUntil
  windows : ∀ item key period, ((after.requests item key period).dropWhile (· ≤ now - period)) =
    (before.requests item key period).dropWhile (· ≤ now - period)

theorem Unpruned.refl (now : ℚ) (state : RateLimitState) : Unpruned now state state :=
  ⟨rfl, fun _ _ _ => rfl⟩

theorem Unpruned.trans {now : ℚ} {first second third : RateLimitState} (early : Unpruned now first second)
    (late : Unpruned now second third) : Unpruned now first third :=
  ⟨late.cooling.trans early.cooling,
    fun item key period => (late.windows item key period).trans (early.windows item key period)⟩

theorem unexpired_dropWhile (now : ℚ) (period : ℤ) (window : List ℚ) :
    unexpired now period (window.dropWhile (· ≤ now - period)) = unexpired now period window := by
  induction window with
  | nil => rfl
  | cons record rest ih =>
    by_cases expired : record ≤ now - period
    · rw [List.dropWhile_cons_of_pos (by simpa using expired), ih, unexpired, unexpired,
        List.filter_cons, if_neg (by simpa using expired)]
    · rw [List.dropWhile_cons_of_neg (by simpa using expired)]

theorem Unpruned.unexpired {now : ℚ} {before after : RateLimitState} (same : Unpruned now before after)
    (item key : PyText) (period : ℤ) :
    unexpired now period (after.requests item key period) =
      unexpired now period (before.requests item key period) := by
  rw [← unexpired_dropWhile, same.windows, unexpired_dropWhile]

section Probe

variable {policy : RateLimitPolicy} {model : Option PyText} {now : ℚ} {before after : RateLimitState}

/-- A key is cooling, or the window of one of its rules is full. -/
def Limited (policy : RateLimitPolicy) (model : Option PyText) (now : ℚ) (state : RateLimitState)
    (item : PyText) : Prop :=
  now < state.coolingUntil item ∨
    ∃ rule ∈ policy.rulesFor model, 0 < rule.periodSeconds ∧ rule.count ≤
      ((state.requests item (modelKey model) rule.periodSeconds).dropWhile
        (· ≤ now - rule.periodSeconds)).length

/-- **A key is limited** if it is cooling, or the window of one of its rules is full. -/
theorem isRateLimited_iff (state : RateLimitState) (item : PyText) (commit : Bool) :
    (state.isRateLimited now item model policy commit).1 = true ↔
      Limited policy model now state item := by
  have isFull : ∀ rule ∈ policy.rulesFor model,
      (RateLimitState.full (RateLimitState.prune (state.requests item (modelKey model))
        (positivePeriods (policy.rulesFor model)) now) rule = true ↔
          0 < rule.periodSeconds ∧ rule.count ≤
            ((state.requests item (modelKey model) rule.periodSeconds).dropWhile
              (· ≤ now - rule.periodSeconds)).length) := by
    intro rule isRule
    unfold RateLimitState.full
    rw [Bool.and_eq_true, decide_eq_true_eq, decide_eq_true_eq]
    refine and_congr_right fun positive => ?_
    rw [RateLimitState.prune, if_pos (mem_positivePeriods.mpr ⟨positive, rule, isRule, rfl⟩)]
  unfold RateLimitState.isRateLimited Limited
  by_cases cooling : now < state.coolingUntil item
  · rw [if_pos cooling]
    exact iff_of_true rfl (.inl cooling)
  · rw [if_neg cooling]
    dsimp only
    split
    · rename_i limited
      obtain ⟨rule, isRule, full⟩ := List.any_eq_true.mp limited
      exact iff_of_true rfl (.inr ⟨rule, isRule, (isFull rule isRule).mp full⟩)
    · rename_i room
      have free : ¬ (now < state.coolingUntil item ∨ ∃ rule ∈ policy.rulesFor model,
          0 < rule.periodSeconds ∧ rule.count ≤
            ((state.requests item (modelKey model) rule.periodSeconds).dropWhile
              (· ≤ now - rule.periodSeconds)).length) := by
        rintro (cools | ⟨rule, isRule, full⟩)
        · exact cooling cools
        · exact room (List.any_eq_true.mpr ⟨rule, isRule, (isFull rule isRule).mpr full⟩)
      cases commit with
      | true => exact iff_of_false Bool.false_ne_true free
      | false => exact iff_of_false Bool.false_ne_true free

/-- **Pruning does not change** which keys are limited. -/
theorem Unpruned.limited_iff (same : Unpruned now before after) (item : PyText) :
    Limited policy model now after item ↔ Limited policy model now before item := by
  unfold Limited
  rw [same.cooling]
  refine or_congr_right ?_
  simp only [same.windows]

theorem dropWhile_idem (window : List ℚ) (cutoff : ℚ) :
    (window.dropWhile (· ≤ cutoff)).dropWhile (· ≤ cutoff) = window.dropWhile (· ≤ cutoff) := by
  induction window with
  | nil => rfl
  | cons record rest ih =>
    by_cases expired : record ≤ cutoff
    · rw [List.dropWhile_cons_of_pos (by simpa using expired), ih]
    · rw [List.dropWhile_cons_of_neg (by simpa using expired),
        List.dropWhile_cons_of_neg (by simpa using expired)]

theorem dropWhile_prune (windows : RequestWindows) (periods : List ℤ) (period : ℤ) :
    (RateLimitState.prune windows periods now period).dropWhile (· ≤ now - period) =
      (windows period).dropWhile (· ≤ now - period) := by
  unfold RateLimitState.prune
  split
  · exact dropWhile_idem _ _
  · rfl

theorem unpruned_setWindows (state : RateLimitState) (item : PyText) (periods : List ℤ) :
    Unpruned now state (state.setWindows item (modelKey model)
      (RateLimitState.prune (state.requests item (modelKey model)) periods now)) := by
  refine ⟨rfl, fun item' key' period => ?_⟩
  by_cases here : item' = item ∧ key' = modelKey model
  · obtain ⟨rfl, rfl⟩ := here
    rw [RateLimitState.setWindows_same, dropWhile_prune]
  · rw [RateLimitState.setWindows_other _ _ here]

/-- **A key that is limited** leaves the limiter as it was, up to pruning. -/
theorem Unpruned.probe_limited (same : Unpruned now before after) {item : PyText}
    (limited : (after.isRateLimited now item model policy true).1 = true) :
    Unpruned now before (after.isRateLimited now item model policy true).2 := by
  rcases isRateLimited_cases policy after now item model true with
    ⟨-, kept | dropped⟩ | ⟨admitted, -⟩
  · rw [kept]
    exact same
  · rw [dropped]
    exact same.trans (unpruned_setWindows _ _ _)
  · rw [admitted] at limited
    cases limited

/-- What counts in each window behind a request of a key. -/
structure Recorded (policy : RateLimitPolicy) (model : Option PyText) (now : ℚ) (item : PyText)
    (before after : RateLimitState) : Prop where
  cooling : after.coolingUntil = before.coolingUntil
  recorded : ∀ period ∈ positivePeriods (policy.rulesFor model),
    KeyPool.unexpired now period (after.requests item (modelKey model) period) =
      KeyPool.unexpired now period (before.requests item (modelKey model) period) ++ [now]
  others : ∀ item' key' period,
    ¬ (item' = item ∧ key' = modelKey model ∧ period ∈ positivePeriods (policy.rulesFor model)) →
      KeyPool.unexpired now period (after.requests item' key' period) =
        KeyPool.unexpired now period (before.requests item' key' period)

/-- **A key that is not limited** gets one record in each of its windows. -/
theorem Unpruned.probe_free (same : Unpruned now before after) {item : PyText}
    (free : (after.isRateLimited now item model policy true).1 = false) :
    Recorded policy model now item before (after.isRateLimited now item model policy true).2 := by
  rcases isRateLimited_cases policy after now item model true with ⟨limited, -⟩ | ⟨-, -, committed⟩
  · rw [free] at limited
    cases limited
  · rw [if_pos rfl] at committed
    rw [committed]
    refine ⟨same.cooling, fun period counted => ?_, fun item' key' period other => ?_⟩
    · have current : now - period < now := by
        have positive : (0 : ℚ) < period := by exact_mod_cast (mem_positivePeriods.mp counted).1
        linarith
      rw [RateLimitState.setWindows_same, RateLimitState.record, if_pos counted, RateLimitState.prune,
        if_pos counted, KeyPool.unexpired, List.filter_append, List.filter_cons,
        if_pos (by simpa using current), List.filter_nil]
      exact congrArg (· ++ [now]) ((unexpired_dropWhile now period _).trans (same.unexpired item _ period))
    · by_cases here : item' = item ∧ key' = modelKey model
      · obtain ⟨rfl, rfl⟩ := here
        have uncounted : period ∉ positivePeriods (policy.rulesFor model) :=
          fun counted => other ⟨rfl, rfl, counted⟩
        rw [RateLimitState.setWindows_same, RateLimitState.record, if_neg uncounted, RateLimitState.prune,
          if_neg uncounted]
        exact same.unexpired _ _ _
      · rw [RateLimitState.setWindows_other _ _ here]
        exact same.unexpired _ _ _

end Probe

/-! ### The rotation -/

section Rotation

variable {items : List PyText} {policy : RateLimitPolicy} {model : Option PyText} {now : ℚ}

/-- What `next` is to do from a cursor. -/
inductive Rotates (items : List PyText) (policy : RateLimitPolicy) (model : Option PyText) (now : ℚ)
    (start : ℕ) (before : RateLimitState) (rotation : Rotation) : Prop
  /-- The first key in cyclic order that is not limited is taken. -/
  | takes (steps : ℕ) (inTurn : steps < items.length)
      (limited : ∀ earlier < steps,
        Limited policy model now before (items.getD (ringPlace items.length start earlier) []))
      (free : ¬ Limited policy model now before (items.getD (ringPlace items.length start steps) []))
      (outcome : rotation.outcome = .ok (items.getD (ringPlace items.length start steps) []))
      (moved : rotation.index = ringPlace items.length start (steps + 1))
      (recorded : Recorded policy model now (items.getD (ringPlace items.length start steps) []) before
        rotation.state)
  /-- Every key is limited. -/
  | raises (limited : ∀ item ∈ items, Limited policy model now before item)
      (outcome : rotation.outcome = .error tooManyRequests) (stays : rotation.index = start)
      (unpruned : Unpruned now before rotation.state)

/-- **The loop**, with so many keys left. -/
theorem probeFrom_rotates {start : ℕ} (inRange : start < items.length) {before : RateLimitState}
    (fuel : ℕ) :
    ∀ (steps : ℕ) (state : RateLimitState), steps + fuel = items.length → 0 < fuel →
      Unpruned now before state →
      (∀ earlier < steps,
        Limited policy model now before (items.getD (ringPlace items.length start earlier) [])) →
        ∃ rotation, probeFrom items policy model now start fuel (ringPlace items.length start steps) state =
            some rotation ∧
          Rotates items policy model now start before rotation := by
  induction fuel with
  | zero => exact fun _ _ _ some_ => absurd some_ (lt_irrefl 0)
  | succ fuel ih =>
    intro steps state left _ same limited
    have moves : (ringPlace items.length start steps + 1) % items.length =
        ringPlace items.length start (steps + 1) := by
      rw [ringPlace, ringPlace, Nat.mod_add_mod, Nat.add_assoc]
    have started : ringPlace items.length start 0 = start := Nat.mod_eq_of_lt inRange
    rw [probeFrom]
    dsimp only
    rw [moves]
    cases probed : (state.isRateLimited now (items.getD (ringPlace items.length start steps) []) model policy
        true).1 with
    | false =>
      refine ⟨_, if_pos rfl, .takes steps (by omega) limited ?_ rfl rfl (same.probe_free probed)⟩
      rw [← same.limited_iff, ← isRateLimited_iff _ _ true, probed]
      exact Bool.false_ne_true
    | true =>
      have isLimited : Limited policy model now before
          (items.getD (ringPlace items.length start steps) []) := by
        rw [← same.limited_iff, ← isRateLimited_iff _ _ true, probed]
      have limitedNow : ∀ earlier < steps + 1,
          Limited policy model now before (items.getD (ringPlace items.length start earlier) []) := by
        intro earlier below
        rcases Nat.lt_succ_iff_lt_or_eq.mp below with before | rfl
        · exact limited earlier before
        · exact isLimited
      rw [if_neg (by decide)]
      by_cases last : steps + 1 = items.length
      · -- the cursor is back, and every place has been probed
        have back : ringPlace items.length start (steps + 1) = start := by
          rw [last, ringPlace, Nat.add_mod_right]
          exact started
        refine ⟨_, if_pos back, .raises (fun item isItem => ?_) rfl back (same.probe_limited probed)⟩
        obtain ⟨place, isPlace, rfl⟩ := List.getElem_of_mem isItem
        obtain ⟨earlier, inTurn, here⟩ : ∃ earlier < items.length, ringPlace items.length start earlier = place :=
          exists_ringPlace isPlace
        have known := limitedNow earlier (by omega)
        rw [here, List.getD_eq_getElem?_getD, List.getElem?_eq_getElem isPlace, Option.getD_some] at known
        exact known
      · have apart : ringPlace items.length start (steps + 1) ≠ start := by
          have differs : ringPlace items.length start 0 ≠ ringPlace items.length start (steps + 1) :=
            ringPlace_ne (by omega) (by omega)
          rw [started] at differs
          exact differs.symm
        rw [if_neg apart]
        exact ih (steps + 1) _ (by omega) (by omega) (same.probe_limited probed) limitedNow

theorem Rotates.raises_iff {start : ℕ} {before : RateLimitState} {rotation : Rotation}
    (rotates : Rotates items policy model now start before rotation) :
    rotation.outcome = .error tooManyRequests ↔ ∀ item ∈ items, Limited policy model now before item := by
  cases rotates with
  | takes steps inTurn _ free outcome _ _ =>
    have isPlace : ringPlace items.length start steps < items.length := ringPlace_lt (by omega) steps
    rw [List.getD_eq_getElem?_getD, List.getElem?_eq_getElem isPlace, Option.getD_some] at free
    rw [outcome]
    exact iff_of_false nofun fun all => free (all _ (List.getElem_mem isPlace))
  | raises limited outcome _ _ => exact iff_of_true outcome limited

/-- A task that reorders the keys later does not change what a rotation does. -/
theorem Rotates.trigger {start : ℕ} {before : RateLimitState} {rotation : Rotation}
    (rotates : Rotates items policy model now start before rotation) (triggers : Bool) :
    Rotates items policy model now start before { rotation with triggersReorder := triggers } := by
  cases rotates with
  | takes steps inTurn limited free outcome moved recorded =>
    exact .takes steps inTurn limited free outcome moved recorded
  | raises limited outcome stays unpruned => exact .raises limited outcome stays unpruned

end Rotation

/-- **`next` rotates**: it raises if and only if every key is limited. Otherwise it takes the first key in
cyclic order from the cursor that is not limited, moves the cursor just behind it, and adds one record to
each window of that key and model, while in every other window the same records count. -/
theorem next_rotates (pool : ProviderKeyPool) (model : Option PyText) (now : ℚ)
    (nonempty : pool.items ≠ []) :
    ∃ rotation, pool.next model now = some rotation ∧
      (rotation.outcome = .error tooManyRequests ↔
        ∀ item ∈ pool.items, Limited pool.policy model now pool.state item) ∧
      Rotates pool.items pool.policy model now pool.startIndex pool.state rotation := by
  have some_ : 0 < pool.items.length := List.length_pos_iff.mpr nonempty
  have inRange : pool.startIndex < pool.items.length := by
    unfold ProviderKeyPool.startIndex
    split
    · exact some_
    · exact pool.inRange nonempty
  have started : ringPlace pool.items.length pool.startIndex 0 = pool.startIndex :=
    Nat.mod_eq_of_lt inRange
  obtain ⟨rotation, probed, rotates⟩ := @probeFrom_rotates pool.items pool.policy model now _ inRange _
    pool.items.length 0 pool.state (Nat.zero_add _) some_ (.refl now pool.state) nofun
  rw [started] at probed
  have nonempty' : pool.items.isEmpty = false := by simpa using nonempty
  refine ⟨{ rotation with triggersReorder := pool.triggersReorder }, ?_, (rotates.trigger _).raises_iff,
    rotates.trigger _⟩
  rw [ProviderKeyPool.next, nonempty', probed]
  rfl

/-- Three keys under two requests a minute: the first is cooling, and the window of the second is full. -/
def threeKeys : ProviderKeyPool where
  items := [Utf8.points "a", Utf8.points "b", Utf8.points "c"]
  scheduleAlgorithm := .roundRobin
  index := 0
  state :=
    { requests := fun item _ _ => if item = Utf8.points "b" then [0, 1 / 2] else []
      coolingUntil := fun item => if item = Utf8.points "a" then 60 else 0 }
  policy := ⟨[(defaultKey, [⟨2, 60⟩])]⟩
  inRange _ := by decide

theorem next_rotates_three :
    ∃ rotation, threeKeys.next none 1 = some rotation ∧
      (rotation.outcome = .error tooManyRequests ↔
        ∀ item ∈ threeKeys.items, Limited threeKeys.policy none 1 threeKeys.state item) ∧
      Rotates threeKeys.items threeKeys.policy none 1 threeKeys.startIndex threeKeys.state rotation ∧
      rotation.outcome.toOption = some (Utf8.points "c") := by
  obtain ⟨rotation, rotated, raises, rotates⟩ := next_rotates threeKeys none 1 (by decide)
  have third : (threeKeys.next none 1).bind (·.outcome.toOption) = some (Utf8.points "c") := by
    decide +kernel
  rw [rotated] at third
  exact ⟨rotation, rotated, raises, rotates, third⟩

end UniApi.RateLimit.KeyPool
