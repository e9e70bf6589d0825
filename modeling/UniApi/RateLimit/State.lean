/-
**The sliding windows of a rate limiter, and what a rollback takes from them.**

Each positive period of an item and a model has a window of the times of its requests. A request is
admitted while every window has room for it. A rollback takes the newest record out of every window of
the item and the model, whichever request it is of.

* `covered_step`: each step keeps the requests that still count within the windows, while a rollback takes
  only records of the request that it undoes, or records that have left their window;
* `bounded_step`: so no interval of the length of a period has more requests than the count;
* `windows_bounded`: both along every run;
* `rollback_frees_other`: a run in which a rollback takes the record of a later request.
-/

import Mathlib.Algebra.Order.Ring.Rat
import Mathlib.Data.Int.Cast.Lemmas
import Mathlib.Logic.Function.Basic
import Mathlib.Tactic.Linarith
import UniApi.RateLimit.Policy

namespace UniApi.RateLimit

open UniApi.Lib

/-! ### The limiter -/

/-- The windows of one item and one model. -/
abbrev RequestWindows := ℤ → List ℚ

/-- What a limiter keeps: the windows, which start empty, and until when an item cools. The clock is read
in seconds, and a period is taken off a reading without rounding. -/
structure RateLimitState where
  requests : PyText → PyText → RequestWindows
  coolingUntil : PyText → ℚ

namespace RateLimitState

/-- The limiter before its first request. -/
def start : RateLimitState := ⟨fun _ _ _ => [], fun _ => 0⟩

def setWindows (state : RateLimitState) (item key : PyText) (windows : RequestWindows) :
    RateLimitState :=
  { state with
    requests := Function.update state.requests item
      (Function.update (state.requests item) key windows) }

@[simp] theorem setWindows_same (state : RateLimitState) (item key : PyText)
    (windows : RequestWindows) : (state.setWindows item key windows).requests item key = windows := by
  show Function.update state.requests item (Function.update (state.requests item) key windows)
    item key = windows
  rw [Function.update_self, Function.update_self]

theorem setWindows_other (state : RateLimitState) {item key item' key' : PyText}
    (windows : RequestWindows) (other : ¬ (item' = item ∧ key' = key)) :
    (state.setWindows item key windows).requests item' key' = state.requests item' key' := by
  show Function.update state.requests item (Function.update (state.requests item) key windows)
    item' key' = state.requests item' key'
  by_cases sameItem : item' = item
  · subst sameItem
    rw [Function.update_self, Function.update_of_ne fun sameKey => other ⟨rfl, sameKey⟩]
  · rw [Function.update_of_ne sameItem]

def setCooling (state : RateLimitState) (now : ℚ) (item : PyText) (coolingTime : ℚ) :
    RateLimitState :=
  { state with coolingUntil := Function.update state.coolingUntil item (now + coolingTime) }

/-- The windows after the records that left them are dropped. -/
def prune (windows : RequestWindows) (periods : List ℤ) (now : ℚ) : RequestWindows := fun period =>
  if period ∈ periods then (windows period).dropWhile (· ≤ now - period) else windows period

/-- The windows with a record of a request. -/
def record (windows : RequestWindows) (periods : List ℤ) (now : ℚ) : RequestWindows := fun period =>
  if period ∈ periods then windows period ++ [now] else windows period

/-- Whether a window is full for a rule. -/
def full (windows : RequestWindows) (rule : RateLimitRule) : Bool :=
  0 < rule.periodSeconds && rule.count ≤ (windows rule.periodSeconds).length

/-- `is_rate_limited`. -/
def isRateLimited (state : RateLimitState) (now : ℚ) (item : PyText) (model : Option PyText)
    (policy : RateLimitPolicy) (commit : Bool) : Bool × RateLimitState :=
  if now < state.coolingUntil item then (true, state)
  else
    let rules := policy.rulesFor model
    let periods := positivePeriods rules
    let pruned := prune (state.requests item (modelKey model)) periods now
    if rules.any (full pruned) then (true, state.setWindows item (modelKey model) pruned)
    else if commit then
      (false, state.setWindows item (modelKey model) (record pruned periods now))
    else (false, state.setWindows item (modelKey model) pruned)

/-- `rollback_last_record`. -/
def rollbackLastRecord (state : RateLimitState) (item : PyText) (model : Option PyText) :
    RateLimitState :=
  state.setWindows item (modelKey model) fun period =>
    (state.requests item (modelKey model) period).dropLast

end RateLimitState

/-! ### Runs -/

/-- A request that was admitted. -/
structure Admission where
  item : PyText
  model : Option PyText
  time : ℚ
  deriving DecidableEq

/-- What happens to a limiter. A rollback undoes one admission. -/
inductive LimitEvent where
  | request (item : PyText) (model : Option PyText) (commit : Bool)
  | rollback (admission : Admission)
  | cool (item : PyText) (seconds : ℚ)

/-- A limiter at the instant of its last event, with the admissions that were not rolled back. -/
structure Limited where
  state : RateLimitState
  live : List Admission
  now : ℚ

def Limited.start (now : ℚ) : Limited := ⟨.start, [], now⟩

variable (policy : RateLimitPolicy)

/-- An event at an instant. -/
def limitStep (world : Limited) (now : ℚ) : LimitEvent → Limited
  | .request item model commit =>
    let asked := world.state.isRateLimited now item model policy commit
    { state := asked.2
      live := if commit && !asked.1 then ⟨item, model, now⟩ :: world.live else world.live
      now := now }
  | .rollback admission =>
    { state := world.state.rollbackLastRecord admission.item admission.model
      live := world.live.erase admission
      now := now }
  | .cool item seconds => { world with state := world.state.setCooling now item seconds, now := now }

/-- A run. -/
def limitRun (world : Limited) (events : List (ℚ × LimitEvent)) : Limited :=
  events.foldl (fun world event => limitStep policy world event.1 event.2) world

/-- Every step of a run meets a condition on the state before it. -/
def Along (condition : Limited → ℚ → LimitEvent → Prop) : Limited → List (ℚ × LimitEvent) → Prop
  | _, [] => True
  | world, event :: events =>
    condition world event.1 event.2 ∧ Along condition (limitStep policy world event.1 event.2) events

/-- The clock does not go back, and a rollback undoes an admission that was not rolled back before. -/
def ValidStep (world : Limited) (now : ℚ) (event : LimitEvent) : Prop :=
  world.now ≤ now ∧
    match event with
    | .rollback admission => admission ∈ world.live
    | .request _ _ _ | .cool _ _ => True

/-- **A rollback takes no record of a later request that still counts**. The newest record of each window
has left it, or it is not later than the undone request, which was recorded there. -/
def TakesOwn (world : Limited) (now : ℚ) (event : LimitEvent) : Prop :=
  match event with
  | .rollback admission =>
    ∀ period newest,
      (world.state.requests admission.item (modelKey admission.model) period).getLast? = some newest →
        newest ≤ now - period ∨
          (newest ≤ admission.time ∧ period ∈ positivePeriods (policy.rulesFor admission.model))
  | .request _ _ _ | .cool _ _ => True

/-! ### Windows that cover what still counts -/

/-- The admissions that were recorded in a window and not rolled back. -/
def recordedIn (live : List Admission) (item key : PyText) (period : ℤ) : List Admission :=
  live.filter fun admission => admission.item = item ∧ modelKey admission.model = key ∧
    period ∈ positivePeriods (policy.rulesFor admission.model)

/-- The number of admissions after an instant. -/
def countAfter (admissions : List Admission) (instant : ℚ) : ℕ :=
  admissions.countP fun admission => instant < admission.time

/-- The number of records after an instant. -/
def recordsAfter (window : List ℚ) (instant : ℚ) : ℕ := window.countP fun time => instant < time

/-- **The windows cover what still counts**: after any instant that is not further back than the period
there are at least as many records as admissions. -/
def Covered (world : Limited) : Prop :=
  ∀ (item key : PyText) (period : ℤ) (instant : ℚ), world.now - period ≤ instant →
    countAfter (recordedIn policy world.live item key period) instant ≤
      recordsAfter (world.state.requests item key period) instant

/-- The admissions of an item and a model in an interval from one instant to another, of which one end
belongs to it. -/
def countWithin (live : List Admission) (item : PyText) (model : Option PyText)
    (inside : ℚ → Bool) : ℕ :=
  live.countP fun admission => admission.item = item && (admission.model = model && inside admission.time)

/-- An interval of the length of a period that is open at its start, or at its end. -/
def HalfOpen (period : ℤ) (inside : ℚ → Bool) : Prop :=
  ∃ first : ℚ, (∀ time, inside time = true ↔ first ≤ time ∧ time < first + period) ∨
    ∀ time, inside time = true ↔ first < time ∧ time ≤ first + period

/-- **The bound**: no interval of the length of the period of a rule has more admissions than its count. -/
def Bounded (world : Limited) : Prop :=
  ∀ item model, ∀ rule ∈ policy.rulesFor model, 0 < rule.periodSeconds →
    ∀ inside, HalfOpen rule.periodSeconds inside →
      countWithin world.live item model inside ≤ rule.count

/-! ### What dropping and recording do to a window -/

/-- Records that left a window are not after any instant within it. -/
theorem recordsAfter_dropWhile (window : List ℚ) {cutoff instant : ℚ} (within : cutoff ≤ instant) :
    recordsAfter (window.dropWhile (· ≤ cutoff)) instant = recordsAfter window instant := by
  unfold recordsAfter
  induction window with
  | nil => rfl
  | cons time rest ih =>
    by_cases left : time ≤ cutoff
    · rw [List.dropWhile_cons_of_pos (by simpa using left), ih, List.countP_cons_of_neg]
      simpa using left.trans within
    · rw [List.dropWhile_cons_of_neg (by simpa using left)]

/-- A window is in the order of its records, of which none is later than the clock. -/
structure OrderedUntil (now : ℚ) (window : List ℚ) : Prop where
  ordered : window.Pairwise (· ≤ ·)
  past : ∀ time ∈ window, time ≤ now

theorem OrderedUntil.nil (now : ℚ) : OrderedUntil now [] :=
  ⟨List.Pairwise.nil, fun _ member => absurd member List.not_mem_nil⟩

theorem OrderedUntil.later {earlier now : ℚ} {window : List ℚ} (ordered : OrderedUntil earlier window)
    (later : earlier ≤ now) : OrderedUntil now window :=
  ⟨ordered.ordered, fun time member => (ordered.past time member).trans later⟩

variable {world : Limited} {now : ℚ} {model : Option PyText}

theorem OrderedUntil.sublist {window kept : List ℚ} (ordered : OrderedUntil now window)
    (sublist : kept.Sublist window) : OrderedUntil now kept :=
  ⟨ordered.ordered.sublist sublist, fun time member => ordered.past time (sublist.subset member)⟩

theorem OrderedUntil.record {window : List ℚ} (ordered : OrderedUntil now window) :
    OrderedUntil now (window ++ [now]) := by
  constructor
  · rw [List.pairwise_append]
    refine ⟨ordered.ordered, List.pairwise_singleton _ _, fun time member present isPresent => ?_⟩
    rw [List.mem_singleton.mp isPresent]
    exact ordered.past time member
  · intro time member
    rcases List.mem_append.mp member with before | present
    · exact ordered.past time before
    · exact (List.mem_singleton.mp present).le

/-- **What is left of an ordered window** is what counts. -/
theorem length_dropWhile {window : List ℚ} (ordered : window.Pairwise (· ≤ ·)) (cutoff : ℚ) :
    (window.dropWhile (· ≤ cutoff)).length = recordsAfter window cutoff := by
  induction window with
  | nil => rfl
  | cons time rest ih =>
    obtain ⟨first, restOrdered⟩ := List.pairwise_cons.mp ordered
    by_cases left : time ≤ cutoff
    · unfold recordsAfter at ih ⊢
      rw [List.dropWhile_cons_of_pos (by simpa using left), ih restOrdered, List.countP_cons_of_neg]
      simpa using left
    · rw [List.dropWhile_cons_of_neg (by simpa using left)]
      refine (List.countP_eq_length.mpr fun other member => ?_).symm
      rw [decide_eq_true_eq]
      rcases List.mem_cons.mp member with rfl | behind
      · exact not_le.mp left
      · exact (not_le.mp left).trans_le (first other behind)

/-- A record that is taken off the end of a window counts after the instants before it. -/
theorem recordsAfter_dropLast {window : List ℚ} {newest : ℚ} (last : window.getLast? = some newest)
    (instant : ℚ) :
    recordsAfter window instant =
      recordsAfter window.dropLast instant + if instant < newest then 1 else 0 := by
  have split := List.dropLast_append_getLast? newest last
  unfold recordsAfter
  conv_lhs => rw [← split]
  rw [List.countP_append, List.countP_singleton]
  simp only [decide_eq_true_eq]

/-- An admission that is undone counts after the instants before it. -/
theorem countAfter_erase (live : List Admission) {admission : Admission} (isLive : admission ∈ live)
    (item key : PyText) (period : ℤ) (instant : ℚ) :
    countAfter (recordedIn policy live item key period) instant =
      countAfter (recordedIn policy (live.erase admission) item key period) instant +
        if (admission.item = item ∧ modelKey admission.model = key ∧
          period ∈ positivePeriods (policy.rulesFor admission.model)) ∧ instant < admission.time
        then 1 else 0 := by
  unfold countAfter recordedIn
  rw [List.countP_filter, List.countP_filter, (List.perm_cons_erase isLive).countP_eq,
    List.countP_cons]
  simp only [Bool.and_eq_true, decide_eq_true_eq, and_comm]

theorem countAfter_erase_le (live : List Admission) (admission : Admission)
    (item key : PyText) (period : ℤ) (instant : ℚ) :
    countAfter (recordedIn policy (live.erase admission) item key period) instant ≤
      countAfter (recordedIn policy live item key period) instant := by
  unfold countAfter recordedIn
  exact (List.erase_sublist.filter _).countP_le

theorem recordsAfter_prune (windows : RequestWindows) (periods : List ℤ) (now : ℚ) (period : ℤ)
    {instant : ℚ} (within : now - period ≤ instant) :
    recordsAfter (RateLimitState.prune windows periods now period) instant =
      recordsAfter (windows period) instant := by
  unfold RateLimitState.prune
  split
  · exact recordsAfter_dropWhile _ within
  · rfl

theorem recordsAfter_record (windows : RequestWindows) (periods : List ℤ) (now : ℚ) (period : ℤ)
    (instant : ℚ) :
    recordsAfter (RateLimitState.record windows periods now period) instant =
      recordsAfter (windows period) instant + if period ∈ periods ∧ instant < now then 1 else 0 := by
  unfold RateLimitState.record
  by_cases counted : period ∈ periods
  · rw [if_pos counted]
    unfold recordsAfter
    rw [List.countP_append, List.countP_singleton]
    simp only [counted, true_and, decide_eq_true_eq]
  · rw [if_neg counted, if_neg fun both => counted both.1, Nat.add_zero]

theorem countAfter_cons (live : List Admission) (admission : Admission) (item key : PyText)
    (period : ℤ) (instant : ℚ) :
    countAfter (recordedIn policy (admission :: live) item key period) instant =
      countAfter (recordedIn policy live item key period) instant +
        if (admission.item = item ∧ modelKey admission.model = key ∧
          period ∈ positivePeriods (policy.rulesFor admission.model)) ∧ instant < admission.time
        then 1 else 0 := by
  unfold countAfter recordedIn
  rw [List.countP_filter, List.countP_filter, List.countP_cons]
  simp only [Bool.and_eq_true, decide_eq_true_eq, and_comm]

/-! ### Steps -/

/-- **What a question does**: it is limited and at most drops what left the windows, or it is not limited,
no window is full, and a request that is committed is recorded. -/
theorem isRateLimited_cases (state : RateLimitState) (now : ℚ) (item : PyText)
    (model : Option PyText) (commit : Bool) :
    let asked := state.isRateLimited now item model policy commit
    let periods := positivePeriods (policy.rulesFor model)
    let pruned := RateLimitState.prune (state.requests item (modelKey model)) periods now
    (asked.1 = true ∧ (asked.2 = state ∨ asked.2 = state.setWindows item (modelKey model) pruned)) ∨
      (asked.1 = false ∧ (policy.rulesFor model).any (RateLimitState.full pruned) = false ∧
        asked.2 = state.setWindows item (modelKey model)
          (if commit then RateLimitState.record pruned periods now else pruned)) := by
  intro asked periods pruned
  unfold asked RateLimitState.isRateLimited
  by_cases cooling : now < state.coolingUntil item
  · rw [if_pos cooling]
    exact .inl ⟨rfl, .inl rfl⟩
  · rw [if_neg cooling]
    dsimp only
    cases isFull : (policy.rulesFor model).any (RateLimitState.full
        (RateLimitState.prune (state.requests item (modelKey model))
          (positivePeriods (policy.rulesFor model)) now)) with
    | true =>
      rw [if_pos rfl]
      exact .inl ⟨rfl, .inr rfl⟩
    | false =>
      rw [if_neg Bool.false_ne_true]
      cases commit with
      | true => exact .inr ⟨rfl, rfl, rfl⟩
      | false => exact .inr ⟨rfl, rfl, rfl⟩

/-- A window of a period that is not counted for a model is not touched by its requests. -/
theorem request_uncounted (policy : RateLimitPolicy) (state : RateLimitState) (now : ℚ)
    (item : PyText) (model : Option PyText) (commit : Bool) {period : ℤ}
    (uncounted : period ∉ positivePeriods (policy.rulesFor model)) (item' key' : PyText) :
    (state.isRateLimited now item model policy commit).2.requests item' key' period =
      state.requests item' key' period := by
  have kept : ∀ windows : RequestWindows,
      windows period = state.requests item (modelKey model) period →
      (state.setWindows item (modelKey model) windows).requests item' key' period =
        state.requests item' key' period := by
    intro windows same
    by_cases here : item' = item ∧ key' = modelKey model
    · obtain ⟨rfl, rfl⟩ := here
      rw [RateLimitState.setWindows_same, same]
    · rw [RateLimitState.setWindows_other _ _ here]
  have pruned : ∀ windows, RateLimitState.prune windows (positivePeriods (policy.rulesFor model)) now
      period = windows period := fun _ => if_neg uncounted
  rcases isRateLimited_cases policy state now item model commit with
    ⟨-, same | dropped⟩ | ⟨-, -, recorded⟩
  · rw [same]
  · rw [dropped]
    exact kept _ (pruned _)
  · rw [recorded]
    refine kept _ ?_
    cases commit with
    | true => exact (if_neg uncounted).trans (pruned _)
    | false => exact pruned _

/-- **A question is admitted** where the item does not cool and no window of its rules is full. -/
theorem isRateLimited_admits {state : RateLimitState} {item : PyText}
    (commit : Bool) (awake : state.coolingUntil item ≤ now)
    (ordered : ∀ period, (state.requests item (modelKey model) period).Pairwise (· ≤ ·)) :
    (state.isRateLimited now item model policy commit).1 = false ↔
      ∀ rule ∈ policy.rulesFor model, 0 < rule.periodSeconds →
        recordsAfter (state.requests item (modelKey model) rule.periodSeconds)
          (now - rule.periodSeconds) < rule.count := by
  have isFull : ∀ rule ∈ policy.rulesFor model,
      (RateLimitState.full (RateLimitState.prune (state.requests item (modelKey model))
        (positivePeriods (policy.rulesFor model)) now) rule = true ↔
          0 < rule.periodSeconds ∧ rule.count ≤ recordsAfter
            (state.requests item (modelKey model) rule.periodSeconds) (now - rule.periodSeconds)) := by
    intro rule isRule
    unfold RateLimitState.full
    rw [Bool.and_eq_true, decide_eq_true_eq, decide_eq_true_eq]
    refine and_congr_right fun positive => ?_
    have counted := mem_positivePeriods.mpr ⟨positive, rule, isRule, rfl⟩
    rw [RateLimitState.prune, if_pos counted, length_dropWhile (ordered _)]
  unfold RateLimitState.isRateLimited
  rw [if_neg (not_lt.mpr awake)]
  dsimp only
  split
  · rename_i limited
    obtain ⟨rule, isRule, full⟩ := List.any_eq_true.mp limited
    obtain ⟨positive, many⟩ := (isFull rule isRule).mp full
    exact ⟨fun no => absurd no.symm Bool.false_ne_true,
      fun all => absurd (all rule isRule positive) (not_lt.mpr many)⟩
  · rename_i admitted
    have room : ∀ rule ∈ policy.rulesFor model, 0 < rule.periodSeconds →
        recordsAfter (state.requests item (modelKey model) rule.periodSeconds)
          (now - rule.periodSeconds) < rule.count := by
      intro rule isRule positive
      by_contra full
      exact admitted (List.any_eq_true.mpr
        ⟨rule, isRule, (isFull rule isRule).mpr ⟨positive, not_lt.mp full⟩⟩)
    cases commit with
    | true => exact iff_of_true rfl room
    | false => exact iff_of_true rfl room

/-- **What a question records**: a request that is admitted and committed, in each of its windows. -/
theorem isRateLimited_records (state : RateLimitState) (now : ℚ) (item : PyText)
    (model : Option PyText) (commit : Bool) (period : ℤ) {instant : ℚ}
    (within : now - period ≤ instant) :
    recordsAfter ((state.isRateLimited now item model policy commit).2.requests item (modelKey model)
      period) instant =
        recordsAfter (state.requests item (modelKey model) period) instant +
          if ((state.isRateLimited now item model policy commit).1 = false ∧ commit = true) ∧
            period ∈ positivePeriods (policy.rulesFor model) ∧ instant < now then 1 else 0 := by
  rcases isRateLimited_cases policy state now item model commit with
    ⟨limited, same | pruned⟩ | ⟨admitted, -, recorded⟩
  · rw [limited, same, if_neg (by simp), Nat.add_zero]
  · rw [limited, pruned, if_neg (by simp), Nat.add_zero, RateLimitState.setWindows_same]
    exact recordsAfter_prune _ _ _ _ within
  · rw [admitted, recorded, RateLimitState.setWindows_same]
    cases commit with
    | true =>
      rw [if_pos rfl, recordsAfter_record, recordsAfter_prune _ _ _ _ within]
      simp only [and_self, true_and]
    | false =>
      rw [if_neg Bool.false_ne_true, if_neg (by simp), Nat.add_zero]
      exact recordsAfter_prune _ _ _ _ within

theorem isRateLimited_cooling (state : RateLimitState) (now : ℚ) (item : PyText)
    (model : Option PyText) (commit : Bool) :
    (state.isRateLimited now item model policy commit).2.coolingUntil = state.coolingUntil := by
  rcases isRateLimited_cases policy state now item model commit with
    ⟨-, same | dropped⟩ | ⟨-, -, recorded⟩
  · rw [same]
  · rw [dropped]
    rfl
  · rw [recorded]
    rfl

/-- A question keeps the windows in order. -/
theorem isRateLimited_ordered {state : RateLimitState} {item : PyText} (commit : Bool)
    (ordered : ∀ period, OrderedUntil now (state.requests item (modelKey model) period))
    (period : ℤ) :
    OrderedUntil now ((state.isRateLimited now item model policy commit).2.requests item
      (modelKey model) period) := by
  have pruned : OrderedUntil now (RateLimitState.prune (state.requests item (modelKey model))
      (positivePeriods (policy.rulesFor model)) now period) := by
    unfold RateLimitState.prune
    split
    · exact (ordered period).sublist (List.dropWhile_sublist _)
    · exact ordered period
  rcases isRateLimited_cases policy state now item model commit with
    ⟨-, same | dropped⟩ | ⟨-, -, recorded⟩
  · rw [same]
    exact ordered period
  · rw [dropped, RateLimitState.setWindows_same]
    exact pruned
  · rw [recorded, RateLimitState.setWindows_same]
    cases commit with
    | true =>
      rw [if_pos rfl, RateLimitState.record]
      split
      · exact pruned.record
      · exact pruned
    | false => exact pruned

variable {policy}

/-- Windows that only dropped what left them, or that gained records, still cover. -/
theorem Covered.mono (covered : Covered policy world) {state : RateLimitState}
    (later : world.now ≤ now)
    (kept : ∀ (item key : PyText) (period : ℤ) (instant : ℚ), now - period ≤ instant →
      recordsAfter (world.state.requests item key period) instant ≤
        recordsAfter (state.requests item key period) instant) :
    Covered policy ⟨state, world.live, now⟩ := by
  intro item key period instant within
  refine (covered item key period instant ?_).trans (kept item key period instant within)
  show world.now - period ≤ instant
  have reading : now - period ≤ instant := within
  linarith

/-- Pruning one key keeps what counts in every window. -/
theorem recordsAfter_setWindows_prune (state : RateLimitState) (item key : PyText)
    (periods : List ℤ) (now : ℚ) (item' key' : PyText) (period : ℤ) {instant : ℚ}
    (within : now - period ≤ instant) :
    recordsAfter ((state.setWindows item key
      (RateLimitState.prune (state.requests item key) periods now)).requests item' key' period) instant =
      recordsAfter (state.requests item' key' period) instant := by
  by_cases same : item' = item ∧ key' = key
  · obtain ⟨rfl, rfl⟩ := same
    rw [RateLimitState.setWindows_same]
    exact recordsAfter_prune _ _ _ _ within
  · rw [RateLimitState.setWindows_other _ _ same]

/-- A committed request is recorded in the windows that count it. -/
theorem Covered.record (covered : Covered policy world)
    (later : world.now ≤ now) (item : PyText) (model : Option PyText) :
    Covered policy
      ⟨world.state.setWindows item (modelKey model)
          (RateLimitState.record (RateLimitState.prune (world.state.requests item (modelKey model))
            (positivePeriods (policy.rulesFor model)) now) (positivePeriods (policy.rulesFor model)) now),
        ⟨item, model, now⟩ :: world.live, now⟩ := by
  intro item' key' period instant within
  have before := covered item' key' period instant (by
    have reading : now - period ≤ instant := within
    linarith)
  rw [countAfter_cons]
  by_cases same : item' = item ∧ key' = modelKey model
  · obtain ⟨rfl, rfl⟩ := same
    rw [RateLimitState.setWindows_same, recordsAfter_record, recordsAfter_prune _ _ _ _ within]
    simp only [true_and]
    exact Nat.add_le_add_right before _
  · rw [RateLimitState.setWindows_other _ _ same, if_neg fun here => same ⟨here.1.1.symm, here.1.2.1.symm⟩]
    exact before

/-- **A rollback that takes its own records** keeps the windows covering. -/
theorem Covered.rollback (covered : Covered policy world)
    (later : world.now ≤ now) {admission : Admission} (isLive : admission ∈ world.live)
    (own : TakesOwn policy world now (.rollback admission)) :
    Covered policy (limitStep policy world now (.rollback admission)) := by
  intro item key period instant within
  have reading : now - period ≤ instant := within
  have before := covered item key period instant (by linarith)
  show countAfter (recordedIn policy (world.live.erase admission) item key period) instant ≤
    recordsAfter ((world.state.rollbackLastRecord admission.item admission.model).requests item key
      period) instant
  by_cases same : item = admission.item ∧ key = modelKey admission.model
  · obtain ⟨rfl, rfl⟩ := same
    unfold RateLimitState.rollbackLastRecord
    rw [RateLimitState.setWindows_same]
    cases last : (world.state.requests admission.item (modelKey admission.model) period).getLast? with
    | none =>
      have empty := List.getLast?_eq_none_iff.mp last
      rw [empty] at before ⊢
      exact (countAfter_erase_le policy _ _ _ _ _ _).trans before
    | some newest =>
      rw [recordsAfter_dropLast last] at before
      rcases own period newest last with left | ⟨notLater, counted⟩
      · rw [if_neg (by linarith), Nat.add_zero] at before
        exact (countAfter_erase_le policy _ _ _ _ _ _).trans before
      · rw [countAfter_erase policy _ isLive] at before
        by_cases after : instant < admission.time
        · rw [if_pos ⟨⟨rfl, rfl, counted⟩, after⟩] at before
          split at before <;> omega
        · rw [if_neg fun both => after both.2, if_neg (by linarith)] at before
          exact before
  · have others : (world.state.rollbackLastRecord admission.item admission.model).requests item key =
        world.state.requests item key := RateLimitState.setWindows_other _ _ same
    rw [others]
    exact (countAfter_erase_le policy _ _ _ _ _ _).trans before

/-- **Every step keeps the windows covering.** -/
theorem covered_step (covered : Covered policy world) {event : LimitEvent}
    (valid : ValidStep world now event) (own : TakesOwn policy world now event) :
    Covered policy (limitStep policy world now event) := by
  cases event with
  | rollback admission => exact covered.rollback valid.1 valid.2 own
  | cool item seconds => exact covered.mono valid.1 fun _ _ _ _ _ => le_rfl
  | request item model commit =>
    rcases isRateLimited_cases policy world.state now item model commit with
      ⟨limited, same | pruned⟩ | ⟨admitted, -, recorded⟩
    · unfold limitStep
      dsimp only
      rw [limited, same, Bool.not_true, Bool.and_false, if_neg Bool.false_ne_true]
      exact covered.mono valid.1 fun _ _ _ _ _ => le_rfl
    · unfold limitStep
      dsimp only
      rw [limited, pruned, Bool.not_true, Bool.and_false, if_neg Bool.false_ne_true]
      exact covered.mono valid.1 fun item' key' period instant within =>
        (recordsAfter_setWindows_prune _ _ _ _ _ _ _ _ within).ge
    · unfold limitStep
      dsimp only
      rw [admitted, recorded, Bool.not_false, Bool.and_true]
      cases commit with
      | true => exact covered.record valid.1 item model
      | false =>
        exact covered.mono valid.1 fun item' key' period instant within =>
          (recordsAfter_setWindows_prune _ _ _ _ _ _ _ _ within).ge

/-! ### The bound -/

/-- What an interval of the length of a period has with an instant is less than a period older. -/
theorem HalfOpen.after {period : ℤ} {inside : ℚ → Bool} (halfOpen : HalfOpen period inside)
    {now time : ℚ} (hasNow : inside now = true) (hasTime : inside time = true) :
    now - period < time := by
  obtain ⟨first, closedOpen | openClosed⟩ := halfOpen
  · have bound := (closedOpen now).mp hasNow
    have lower := (closedOpen time).mp hasTime
    linarith [bound.2, lower.1]
  · have bound := (openClosed now).mp hasNow
    have lower := (openClosed time).mp hasTime
    linarith [bound.2, lower.1]

/-- The admissions of an interval that has an instant are recorded after one period before it. -/
theorem countWithin_le {live : List Admission} {item : PyText} {period : ℤ}
    (counted : period ∈ positivePeriods (policy.rulesFor model)) {inside : ℚ → Bool}
    (halfOpen : HalfOpen period inside) (hasNow : inside now = true) :
    countWithin live item model inside ≤
      countAfter (recordedIn policy live item (modelKey model) period) (now - period) := by
  unfold countWithin countAfter recordedIn
  rw [List.countP_filter]
  refine List.countP_mono_left fun admission _ within => ?_
  simp only [Bool.and_eq_true, decide_eq_true_eq] at within ⊢
  obtain ⟨rfl, rfl, hasTime⟩ := within
  exact ⟨halfOpen.after hasNow hasTime, rfl, rfl, counted⟩

/-- A window that is not full has room below the count of each of its rules. -/
theorem length_lt_of_not_full {rules : List RateLimitRule} {windows : RequestWindows}
    (room : rules.any (RateLimitState.full windows) = false) {rule : RateLimitRule}
    (isRule : rule ∈ rules) (positive : 0 < rule.periodSeconds) :
    (windows rule.periodSeconds).length < rule.count := by
  have notFull := List.any_eq_false.mp room rule isRule
  unfold RateLimitState.full at notFull
  simp only [positive, decide_true, Bool.true_and, decide_eq_true_eq, not_le] at notFull
  exact notFull

/-- **An admission stays within the bound.** In an interval that has its instant, all others are recorded
in a window that was not full. -/
theorem Bounded.record (bounded : Bounded policy world)
    (covered : Covered policy world) (later : world.now ≤ now) {item : PyText}
    (room : (policy.rulesFor model).any (RateLimitState.full
      (RateLimitState.prune (world.state.requests item (modelKey model))
        (positivePeriods (policy.rulesFor model)) now)) = false) (state : RateLimitState) :
    Bounded policy ⟨state, ⟨item, model, now⟩ :: world.live, now⟩ := by
  intro item' model' rule isRule positive inside halfOpen
  have before := bounded item' model' rule isRule positive inside halfOpen
  show countWithin (⟨item, model, now⟩ :: world.live) item' model' inside ≤ rule.count
  have isNew : countWithin (⟨item, model, now⟩ :: world.live) item' model' inside =
      countWithin world.live item' model' inside +
        if item = item' ∧ model = model' ∧ inside now = true then 1 else 0 := by
    unfold countWithin
    rw [List.countP_cons]
    simp only [Bool.and_eq_true, decide_eq_true_eq]
  rw [isNew]
  split
  · rename_i here
    obtain ⟨rfl, rfl, hasNow⟩ := here
    have counted : rule.periodSeconds ∈ positivePeriods (policy.rulesFor model) :=
      mem_positivePeriods.mpr ⟨positive, rule, isRule, rfl⟩
    calc countWithin world.live item model inside + 1
        ≤ countAfter (recordedIn policy world.live item (modelKey model) rule.periodSeconds)
            (now - rule.periodSeconds) + 1 :=
          Nat.add_le_add_right (countWithin_le counted halfOpen hasNow) 1
      _ ≤ recordsAfter (world.state.requests item (modelKey model) rule.periodSeconds)
            (now - rule.periodSeconds) + 1 :=
          Nat.add_le_add_right (covered _ _ _ _ (by linarith)) 1
      _ = recordsAfter (RateLimitState.prune (world.state.requests item (modelKey model))
            (positivePeriods (policy.rulesFor model)) now rule.periodSeconds)
            (now - rule.periodSeconds) + 1 := by rw [recordsAfter_prune _ _ _ _ le_rfl]
      _ ≤ (RateLimitState.prune (world.state.requests item (modelKey model))
            (positivePeriods (policy.rulesFor model)) now rule.periodSeconds).length + 1 :=
          Nat.add_le_add_right List.countP_le_length 1
      _ ≤ rule.count := length_lt_of_not_full room isRule positive
  · exact before

/-- **Every step stays within the bound.** -/
theorem bounded_step (bounded : Bounded policy world)
    (covered : Covered policy world) {event : LimitEvent}
    (valid : ValidStep world now event) : Bounded policy (limitStep policy world now event) := by
  cases event with
  | cool item seconds => exact bounded
  | rollback admission =>
    intro item model rule isRule positive inside halfOpen
    exact List.erase_sublist.countP_le.trans (bounded item model rule isRule positive inside halfOpen)
  | request item model commit =>
    rcases isRateLimited_cases policy world.state now item model commit with
      ⟨limited, -⟩ | ⟨admitted, room, -⟩
    · unfold limitStep
      dsimp only
      rw [limited, Bool.not_true, Bool.and_false, if_neg Bool.false_ne_true]
      exact bounded
    · unfold limitStep
      dsimp only
      rw [admitted, Bool.not_false, Bool.and_true]
      cases commit with
      | true => exact bounded.record covered valid.1 room _
      | false => exact bounded

/-! ### Every run -/

/-- Both hold along a run whose rollbacks take their own records. -/
theorem windows_bounded (events : List (ℚ × LimitEvent))
    (covered : Covered policy world) (bounded : Bounded policy world)
    (valid : Along policy ValidStep world events) (own : Along policy (TakesOwn policy) world events) :
    Covered policy (limitRun policy world events) ∧ Bounded policy (limitRun policy world events) := by
  induction events generalizing world with
  | nil => exact ⟨covered, bounded⟩
  | cons event events ih =>
    exact ih (covered_step covered valid.1 own.1) (bounded_step bounded covered valid.1) valid.2 own.2

theorem covered_start (now : ℚ) : Covered policy (Limited.start now) :=
  fun _ _ _ _ _ => Nat.zero_le _

theorem bounded_start (now : ℚ) : Bounded policy (Limited.start now) :=
  fun _ _ _ _ _ _ _ => Nat.zero_le _

/-- **Sliding windows are safe in every run whose rollbacks take their own records**. For every policy,
item, model and rule, no interval of the length of the period has more admissions than the count that
were not rolled back. -/
theorem sliding_windows_safe (policy : RateLimitPolicy) (start : ℚ) (events : List (ℚ × LimitEvent))
    (valid : Along policy ValidStep (Limited.start start) events)
    (own : Along policy (TakesOwn policy) (Limited.start start) events) :
    Bounded policy (limitRun policy (Limited.start start) events) :=
  (windows_bounded events (covered_start start) (bounded_start start) valid own).2

/-! ### A rollback that takes the record of another request -/

/-- Two requests in ten seconds. -/
def twoInTen : RateLimitPolicy := ⟨[(defaultKey, [⟨2, 10⟩])]⟩

/-- The item and the model of the requests. -/
def onlyItem : PyText := []

/-- Two requests, of which the first is rolled back, and two more when it would have left the window. -/
def firstUndone : List (ℚ × LimitEvent) :=
  [(0, .request onlyItem none true), (9, .request onlyItem none true),
    (9, .rollback ⟨onlyItem, none, 0⟩), (10, .request onlyItem none true),
    (10, .request onlyItem none true)]

/-- The last of two requests is rolled back. -/
def lastUndone : List (ℚ × LimitEvent) :=
  [(0, .request onlyItem none true), (9, .request onlyItem none true),
    (9, .rollback ⟨onlyItem, none, 9⟩), (10, .request onlyItem none true)]

/-- **A rollback frees the place of a later request**: three requests within ten seconds were not rolled
back. -/
theorem rollback_frees_other :
    Along twoInTen ValidStep (Limited.start 0) firstUndone ∧
      ¬ Bounded twoInTen (limitRun twoInTen (Limited.start 0) firstUndone) := by
  constructor
  · refine ⟨⟨?_, trivial⟩, ⟨?_, trivial⟩, ⟨?_, ?_⟩, ⟨?_, trivial⟩, ⟨?_, trivial⟩, trivial⟩
    all_goals decide +kernel
  · intro bounded
    have three := bounded onlyItem none ⟨2, 10⟩ (by decide) (by decide)
      (fun time => 0 < time ∧ time ≤ 10)
      ⟨0, .inr fun time => by simp only [decide_eq_true_eq, zero_add]; norm_cast⟩
    revert three
    decide +kernel

/-- **Undoing the last request** takes its own record. -/
theorem last_undone_safe : Bounded twoInTen (limitRun twoInTen (Limited.start 0) lastUndone) := by
  refine sliding_windows_safe twoInTen 0 lastUndone ?_ ⟨trivial, trivial, ?_, trivial, trivial⟩
  · refine ⟨⟨?_, trivial⟩, ⟨?_, trivial⟩, ⟨?_, ?_⟩, ⟨?_, trivial⟩, trivial⟩
    all_goals decide +kernel
  · intro period newest last
    by_cases counted : period ∈ positivePeriods (twoInTen.rulesFor none)
    · have isTen : period = 10 := by
        obtain ⟨-, rule, isRule, rfl⟩ := mem_positivePeriods.mp counted
        have only : twoInTen.rulesFor none = [⟨2, 10⟩] := by decide
        rw [only, List.mem_singleton] at isRule
        rw [isRule]
      subst isTen
      have nine : some newest = some (9 : ℚ) := by
        rw [← last]
        decide +kernel
      cases nine
      exact .inr ⟨le_rfl, counted⟩
    · have empty : ((limitStep twoInTen (limitStep twoInTen (Limited.start 0) 0
          (.request onlyItem none true)) 9 (.request onlyItem none true)).state.requests onlyItem
            (modelKey none) period) = [] :=
        (request_uncounted twoInTen _ 9 onlyItem none true counted _ _).trans
          (request_uncounted twoInTen _ 0 onlyItem none true counted _ _)
      have isLast : ([] : List ℚ).getLast? = some newest := empty ▸ last
      cases isLast

end UniApi.RateLimit
