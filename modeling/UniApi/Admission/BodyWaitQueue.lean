/-
**`_FairBodyMemoryWaitQueue`: waiters in two lanes, tenants in turn.**

Each lane has a queue for each of its tenants, a ring of tenants, and at most one turn. A call of the
queue is one step; waiters are numbered in the order of their arrival.

* `Lane.Sound`, `Sound`: the queues hold exactly the waiters that are queued, in order of arrival, and
  their tenants are in the ring;
* `promote_spec`: who is given the turn;
* `enqueue_sound`, `promote_sound`, `dequeue_spec`: what the calls are made of keeps the invariant.

A ring may hold more than the tenants with waiters: `_remove` leaves a tenant there.
-/

import UniApi.Lib.Tables
import UniApi.Lib.Totals

namespace UniApi.Admission

open UniApi.Lib UniApi.Lib.Table

/-! ### Waiters and lanes -/

inductive WaiterState where
  | queued
  | granted
  | abandoned
  deriving DecidableEq

/-- `_BodyMemoryWaiter`; of its future, whether it is done. -/
structure BodyMemoryWaiter where
  done : Bool
  tenantKey : String
  smallLane : Bool
  state : WaiterState
  deriving DecidableEq

/-- One lane: its tenants' queues, its ring, and whether a turn is active or may be given. -/
structure Lane where
  queues : Table String (List Nat)
  tenantRoundRobin : List String
  activeTurn : Bool
  promotionEnabled : Bool

/-- `_FairBodyMemoryWaitQueue`, with the waiters it was ever given. -/
structure BodyWaitQueue where
  limit : Option Nat
  lane : Bool → Lane
  waiter : Nat → BodyMemoryWaiter
  /-- The number of the next waiter. -/
  next : Nat
  count : Int
  peak : Int
  grants : Nat
  timeouts : Nat
  queueFull : Nat

namespace Lane

/-- A lane without waiters. -/
def fresh : Lane := ⟨∅, [], false, true⟩

/-- `_count_for_lane`. -/
def count (lane : Lane) : Nat := weight List.length lane.queues

/-- A waiter joins the queue of its tenant. -/
def push (tenant : String) (id : Nat) (lane : Lane) : Lane :=
  match lane.queues.lookup tenant with
  | none =>
    { lane with
      queues := lane.queues.insert tenant [id]
      tenantRoundRobin := lane.tenantRoundRobin ++ [tenant] }
  | some ids => { lane with queues := lane.queues.replace tenant (ids ++ [id]) }

/-- A tenant's queue after a waiter left it: an empty queue is dropped. -/
def leave (tenant : String) (rest : List Nat) (lane : Lane) : Lane :=
  { lane with
    queues := if rest = [] then lane.queues.erase tenant else lane.queues.replace tenant rest }

/-- `_promote` after it took the tenant at the head of the ring and the first of its waiters. -/
def rotate (tenant : String) (rest : List Nat) (ring : List String) (lane : Lane) : Lane :=
  { lane.leave tenant rest with
    tenantRoundRobin := if rest = [] then ring else ring ++ [tenant] }

end Lane

namespace BodyWaitQueue

/-- The queue at its start. -/
def fresh (limit : Option Nat) : BodyWaitQueue where
  limit
  lane := fun _ => .fresh
  waiter := fun _ => ⟨false, "", true, .abandoned⟩
  next := 0
  count := 0
  peak := 0
  grants := 0
  timeouts := 0
  queueFull := 0

/-- A change of one lane. -/
def setLane (small : Bool) (lane : Lane) (queue : BodyWaitQueue) : BodyWaitQueue :=
  { queue with lane := Function.update queue.lane small lane }

/-- A change of one waiter. -/
def setWaiter (id : Nat) (waiter : BodyMemoryWaiter) (queue : BodyWaitQueue) : BodyWaitQueue :=
  { queue with waiter := Function.update queue.waiter id waiter }

/-- `has_waiters`. -/
def hasWaiters (small : Bool) (queue : BodyWaitQueue) : Bool :=
  (queue.lane small).activeTurn || decide (0 < (queue.lane small).count)

/-- A waiter is given the turn of its lane. -/
def grant (small : Bool) (id : Nat) (queue : BodyWaitQueue) : BodyWaitQueue :=
  let queue := queue.setWaiter id { queue.waiter id with state := .granted, done := true }
  { queue.setLane small { queue.lane small with activeTurn := true } with grants := queue.grants + 1 }

/-- The loop of `_promote`. Every round takes a tenant from the ring or a waiter from a queue. -/
def promoteLoop (small : Bool) : Nat → BodyWaitQueue → BodyWaitQueue
  | 0, queue => queue
  | fuel + 1, queue =>
    match (queue.lane small).tenantRoundRobin with
    | [] => queue
    | tenant :: ring =>
      match ((queue.lane small).queues.lookup tenant).getD [] with
      | [] =>
        promoteLoop small fuel (queue.setLane small
          { queue.lane small with
            queues := (queue.lane small).queues.erase tenant
            tenantRoundRobin := ring })
      | id :: rest =>
        let queue :=
          { queue.setLane small ((queue.lane small).rotate tenant rest ring) with
            count := queue.count - 1 }
        if (queue.waiter id).state ≠ .queued ∨ (queue.waiter id).done = true then
          promoteLoop small fuel queue
        else queue.grant small id

/-- `_promote`. -/
def promote (small : Bool) (queue : BodyWaitQueue) : BodyWaitQueue :=
  if (queue.lane small).activeTurn || !(queue.lane small).promotionEnabled then queue
  else
    promoteLoop small ((queue.lane small).tenantRoundRobin.length + (queue.lane small).count) queue

/-- `finish_turn`: `none` when no turn is active, and it raises. -/
def finishTurn (small : Bool) (queue : BodyWaitQueue) : Option BodyWaitQueue :=
  if (queue.lane small).activeTurn then
    some ((queue.setLane small { queue.lane small with activeTurn := false }).promote small)
  else none

/-- `str(tenant_key or "anonymous")[:96]`. -/
def normalizedTenant (tenantKey : String) : String :=
  String.ofList ((if tenantKey = "" then "anonymous" else tenantKey).toList.take 96)

/-- A waiter arrives. -/
def enqueue (tenant : String) (small : Bool) (queue : BodyWaitQueue) : BodyWaitQueue :=
  let waiting := (queue.setWaiter queue.next ⟨false, tenant, small, .queued⟩).setLane small
    ((queue.lane small).push tenant queue.next)
  { waiting with
    next := queue.next + 1
    count := queue.count + 1
    peak := max queue.peak (queue.count + 1) }

/-- `wait_turn` up to its wait: the number of the waiter, or `none` when it raises `TimeoutError`. -/
def waitTurn (tenantKey : String) (small : Bool) (timeoutPositive : Bool) (queue : BodyWaitQueue) :
    Option Nat × BodyWaitQueue :=
  if !timeoutPositive then (none, queue)
  else if queue.limit.any fun limit => (limit : Int) ≤ queue.count then
    (none, { queue with queueFull := queue.queueFull + 1 })
  else (some queue.next, (queue.enqueue (normalizedTenant tenantKey) small).promote small)

/-- A waiter that has not been granted leaves its queue: `queue.remove(waiter)`. -/
def dequeue (id : Nat) (queue : BodyWaitQueue) : BodyWaitQueue :=
  let waiter := queue.waiter id
  let queue := queue.setWaiter id { waiter with state := .abandoned }
  let lane := queue.lane waiter.smallLane
  match lane.queues.lookup waiter.tenantKey with
  | none => queue
  | some ids =>
    if id ∈ ids then
      { queue.setLane waiter.smallLane (lane.leave waiter.tenantKey (ids.erase id)) with
        count := queue.count - 1 }
    else queue.setLane waiter.smallLane (lane.leave waiter.tenantKey ids)

/-- `_remove`. A `finish_turn` that raises leaves the queue as it is. -/
def remove (id : Nat) (queue : BodyWaitQueue) : BodyWaitQueue :=
  let waiter := queue.waiter id
  match waiter.state with
  | .granted =>
    let queue := queue.setWaiter id { waiter with state := .abandoned }
    (queue.finishTurn waiter.smallLane).getD queue
  | .queued => queue.dequeue id
  | .abandoned => queue

/-- `block_until_release`. -/
def blockUntilRelease (small : Bool) (queue : BodyWaitQueue) : BodyWaitQueue :=
  queue.setLane small { queue.lane small with promotionEnabled := false }

/-- `notify_memory_released` for one lane. -/
def notifyLane (small : Bool) (queue : BodyWaitQueue) : BodyWaitQueue :=
  (queue.setLane small { queue.lane small with promotionEnabled := true }).promote small

/-- `notify_memory_released`. -/
def notifyMemoryReleased (queue : BodyWaitQueue) : BodyWaitQueue :=
  (queue.notifyLane true).notifyLane false

end BodyWaitQueue

/-! ### Lanes -/

namespace Lane

variable {lane : Lane} {small : Bool} {waiter : Nat → BodyMemoryWaiter} {tenant : String}

theorem lookup_push (lane : Lane) (tenant other : String) (id : Nat) :
    (lane.push tenant id).queues.lookup other =
      if other = tenant then some ((lane.queues.lookup tenant).getD [] ++ [id])
      else lane.queues.lookup other := by
  unfold push
  cases found : lane.queues.lookup tenant with
  | none =>
    by_cases same : other = tenant
    · subst same
      rw [if_pos rfl]
      exact AList.lookup_insert _
    · rw [if_neg same]
      exact lookup_insert_of_ne same
  | some ids =>
    by_cases same : other = tenant
    · subst same
      rw [if_pos rfl]
      exact lookup_replace found _
    · rw [if_neg same]
      exact lookup_replace_of_ne _ same

theorem count_push (lane : Lane) (tenant : String) (id : Nat) :
    (lane.push tenant id).count = lane.count + 1 := by
  unfold push count
  cases found : lane.queues.lookup tenant with
  | none => exact weight_insert _ found _
  | some ids =>
    have moved := weight_replace List.length found (ids ++ [id])
    rw [List.length_append, List.length_singleton] at moved
    show weight List.length (lane.queues.replace tenant (ids ++ [id])) = _
    omega

theorem mem_ring_push (lane : Lane) (tenant other : String) (id : Nat) :
    other ∈ (lane.push tenant id).tenantRoundRobin ↔
      other ∈ lane.tenantRoundRobin ∨ (other = tenant ∧ lane.queues.lookup tenant = none) := by
  unfold push
  cases found : lane.queues.lookup tenant with
  | none => simp
  | some ids => simp

theorem lookup_leave {ids : List Nat} (found : lane.queues.lookup tenant = some ids) (rest : List Nat)
    (other : String) :
    (lane.leave tenant rest).queues.lookup other =
      if other = tenant then if rest = [] then none else some rest
      else lane.queues.lookup other := by
  unfold leave
  by_cases empty : rest = []
  · rw [if_pos empty, if_pos empty]
    by_cases same : other = tenant
    · subst same
      rw [if_pos rfl]
      exact AList.lookup_erase _ _
    · rw [if_neg same]
      exact lookup_erase_of_ne same
  · rw [if_neg empty, if_neg empty]
    by_cases same : other = tenant
    · subst same
      rw [if_pos rfl]
      exact lookup_replace found _
    · rw [if_neg same]
      exact lookup_replace_of_ne _ same

theorem count_leave {ids : List Nat} (found : lane.queues.lookup tenant = some ids) {rest : List Nat}
    (shorter : rest.length + 1 = ids.length) : (lane.leave tenant rest).count + 1 = lane.count := by
  unfold leave count
  by_cases empty : rest = []
  · rw [if_pos empty]
    have removed := weight_erase List.length found
    rw [empty, List.length_nil] at shorter
    show weight List.length (lane.queues.erase tenant) + 1 = _
    omega
  · rw [if_neg empty]
    have moved := weight_replace List.length found rest
    show weight List.length (lane.queues.replace tenant rest) + 1 = _
    omega

/-- **A lane is sound**: every queue holds waiters that are queued there, in order of arrival, and the
ring has every tenant that has a queue. -/
structure Sound (small : Bool) (waiter : Nat → BodyMemoryWaiter) (lane : Lane) : Prop where
  nonempty : ∀ tenant ids, lane.queues.lookup tenant = some ids → ids ≠ []
  sorted : ∀ tenant ids, lane.queues.lookup tenant = some ids → ids.Pairwise (· < ·)
  member : ∀ tenant ids, lane.queues.lookup tenant = some ids → ∀ id ∈ ids,
    waiter id = ⟨false, tenant, small, .queued⟩
  ringed : ∀ tenant ids, lane.queues.lookup tenant = some ids → tenant ∈ lane.tenantRoundRobin

/-- A lane does not depend on the waiters that are not in its queues. -/
theorem Sound.frame (sound : lane.Sound small waiter) {other : Nat → BodyMemoryWaiter}
    (same : ∀ tenant ids, lane.queues.lookup tenant = some ids → ∀ id ∈ ids, other id = waiter id) :
    lane.Sound small other :=
  ⟨sound.nonempty, sound.sorted, fun tenant ids found id inside =>
    (same tenant ids found id inside).trans (sound.member tenant ids found id inside), sound.ringed⟩

/-- Another turn, another switch: the queues and the ring are what counts. -/
theorem Sound.switch (sound : lane.Sound small waiter) (activeTurn promotionEnabled : Bool) :
    ({ lane with activeTurn, promotionEnabled } : Lane).Sound small waiter :=
  ⟨sound.nonempty, sound.sorted, sound.member, sound.ringed⟩

theorem push_sound (sound : lane.Sound small waiter) {id : Nat}
    (last : ∀ ids, lane.queues.lookup tenant = some ids → ∀ other ∈ ids, other < id)
    (own : waiter id = ⟨false, tenant, small, .queued⟩) :
    (lane.push tenant id).Sound small waiter := by
  refine ⟨?_, ?_, ?_, ?_⟩ <;> intro other ids found <;> rw [lookup_push] at found <;>
    by_cases same : other = tenant
  · rw [if_pos same] at found
    cases found
    exact List.append_ne_nil_of_right_ne_nil _ (List.cons_ne_nil _ _)
  · rw [if_neg same] at found
    exact sound.nonempty other ids found
  · rw [if_pos same] at found
    cases found
    cases old : lane.queues.lookup tenant with
    | none => exact List.pairwise_singleton _ _
    | some before =>
      refine List.pairwise_append.mpr
        ⟨sound.sorted tenant before old, List.pairwise_singleton _ _, fun first here second there => ?_⟩
      rw [List.mem_singleton.mp there]
      exact last before old first here
  · rw [if_neg same] at found
    exact sound.sorted other ids found
  · rw [if_pos same] at found
    cases found
    intro key inside
    rcases List.mem_append.mp inside with old | new
    · cases before : lane.queues.lookup tenant with
      | none =>
        rw [before] at old
        exact absurd old List.not_mem_nil
      | some queued =>
        rw [before] at old
        rw [same]
        exact sound.member tenant queued before key old
    · rw [List.mem_singleton.mp new, same]
      exact own
  · rw [if_neg same] at found
    exact sound.member other ids found
  · refine (mem_ring_push lane tenant other id).mpr ?_
    cases old : lane.queues.lookup tenant with
    | none => exact Or.inr ⟨same, rfl⟩
    | some before =>
      rw [same]
      exact Or.inl (sound.ringed tenant before old)
  · rw [if_neg same] at found
    exact (mem_ring_push lane tenant other id).mpr (Or.inl (sound.ringed other ids found))

/-- **A queue that some waiters left**, with a ring that has every tenant it needs. -/
theorem leave_sound (sound : lane.Sound small waiter) {ids rest : List Nat}
    (found : lane.queues.lookup tenant = some ids) (fewer : rest.Sublist ids) {after : Lane}
    (queues : after.queues = (lane.leave tenant rest).queues)
    (ringed : ∀ other ids, after.queues.lookup other = some ids → other ∈ after.tenantRoundRobin) :
    after.Sound small waiter := by
  have row : ∀ other now, after.queues.lookup other = some now →
      now ≠ [] ∧ ∃ before, lane.queues.lookup other = some before ∧ now.Sublist before := by
    intro other now here
    rw [queues, lookup_leave found] at here
    split at here
    · rename_i same
      split at here
      · cases here
      · rename_i nonempty
        cases here
        exact ⟨nonempty, ids, same ▸ found, fewer⟩
    · exact ⟨sound.nonempty other now here, now, here, List.Sublist.refl _⟩
  refine ⟨fun other now here => (row other now here).1, fun other now here => ?_,
    fun other now here id inside => ?_, ringed⟩
  · obtain ⟨-, before, old, part⟩ := row other now here
    exact (sound.sorted other before old).sublist part
  · obtain ⟨-, before, old, part⟩ := row other now here
    exact sound.member other before old id (part.subset inside)

end Lane

/-! ### The queue -/

namespace BodyWaitQueue

variable {queue : BodyWaitQueue} {small : Bool}

@[simp] theorem setLane_lane (small other : Bool) (lane : Lane) (queue : BodyWaitQueue) :
    (queue.setLane small lane).lane other = if other = small then lane else queue.lane other := by
  unfold setLane
  exact Function.update_apply _ _ _ _

@[simp] theorem setLane_waiter (small : Bool) (lane : Lane) (queue : BodyWaitQueue) :
    (queue.setLane small lane).waiter = queue.waiter := rfl

@[simp] theorem setWaiter_lane (id : Nat) (waiter : BodyMemoryWaiter) (queue : BodyWaitQueue) :
    (queue.setWaiter id waiter).lane = queue.lane := rfl

@[simp] theorem setWaiter_waiter (id other : Nat) (waiter : BodyMemoryWaiter) (queue : BodyWaitQueue) :
    (queue.setWaiter id waiter).waiter other = if other = id then waiter else queue.waiter other := by
  unfold setWaiter
  exact Function.update_apply _ _ _ _

/-- How many waiters are queued. -/
def queued (queue : BodyWaitQueue) : Nat :=
  countUpTo (fun id => (queue.waiter id).state = .queued) queue.next

theorem queued_congr {after : BodyWaitQueue} (next : after.next = queue.next)
    (same : ∀ id, (after.waiter id).state = .queued ↔ (queue.waiter id).state = .queued) :
    after.queued = queue.queued := by
  unfold queued
  rw [next]
  exact countUpTo_congr fun id _ => same id

variable {id : Nat}

/-- One waiter is not queued any more. -/
theorem queued_of_left {after : BodyWaitQueue} (next : after.next = queue.next)
    (inside : id < queue.next) (was : (queue.waiter id).state = .queued)
    (left : (after.waiter id).state ≠ .queued)
    (same : ∀ other, other ≠ id → after.waiter other = queue.waiter other) :
    after.queued + 1 = queue.queued := by
  unfold queued
  rw [next]
  have moved := countUpTo_update (fun id => (after.waiter id).state = .queued)
    (fun id => (queue.waiter id).state = .queued) inside fun key different => by rw [same key different]
  simpa [was, left] using moved

/-- **The queue is sound.** -/
structure Sound (queue : BodyWaitQueue) : Prop where
  lane : ∀ small, (queue.lane small).Sound small queue.waiter
  complete : ∀ id, (queue.waiter id).state = .queued →
    ∃ ids, (queue.lane (queue.waiter id).smallLane).queues.lookup (queue.waiter id).tenantKey =
      some ids ∧ id ∈ ids
  later : ∀ id, queue.next ≤ id → queue.waiter id = ⟨false, "", true, .abandoned⟩
  granted : ∀ id, (queue.waiter id).state = .granted → (queue.waiter id).done = true
  counted : queue.count = (queue.lane true).count + (queue.lane false).count
  number : queue.count = queue.queued

theorem fresh_sound (limit : Option Nat) : (fresh limit).Sound :=
  ⟨fun _ => ⟨nofun, nofun, nofun, nofun⟩, nofun, fun _ _ => rfl, nofun, rfl, rfl⟩

theorem Sound.arrived (sound : queue.Sound) {tenant : String} {ids : List Nat}
    (found : (queue.lane small).queues.lookup tenant = some ids) (inside : id ∈ ids) :
    id < queue.next := by
  by_contra late
  have known := (sound.lane small).member tenant ids found id inside
  rw [sound.later id (Nat.le_of_not_lt late)] at known
  cases known

theorem setLane_setLane (small : Bool) (first second : Lane) (queue : BodyWaitQueue) :
    (queue.setLane small first).setLane small second = queue.setLane small second := by
  unfold setLane
  dsimp only
  rw [Function.update_idem]

theorem Sound.relane (sound : queue.Sound) {lane : Lane} (lanes : lane.Sound small queue.waiter)
    (queues : lane.queues = (queue.lane small).queues) : (queue.setLane small lane).Sound := by
  have same : ∀ other, ((queue.setLane small lane).lane other).queues = (queue.lane other).queues := by
    intro other
    rw [setLane_lane]
    split
    · rename_i here
      rw [queues, here]
    · rfl
  refine ⟨fun other => ?_, fun id queued => ?_, sound.later, sound.granted, ?_, sound.number⟩
  · rw [setLane_lane]
    split
    · rename_i here
      rw [here]
      exact lanes
    · exact sound.lane other
  · rw [same]
    exact sound.complete id queued
  · unfold Lane.count
    rw [same, same]
    exact sound.counted

/-- **A waiter arrives.** -/
theorem enqueue_sound (sound : queue.Sound) (tenant : String) (small : Bool) :
    (queue.enqueue tenant small).Sound := by
  have lanes : ∀ other, (queue.enqueue tenant small).lane other =
      if other = small then (queue.lane small).push tenant queue.next else queue.lane other :=
    fun other => setLane_lane _ _ _ _
  have waiters : ∀ id, (queue.enqueue tenant small).waiter id =
      if id = queue.next then ⟨false, tenant, small, .queued⟩ else queue.waiter id :=
    fun id => setWaiter_waiter _ _ _ _
  have framed : ∀ other, (queue.lane other).Sound other (queue.enqueue tenant small).waiter := by
    intro other
    refine (sound.lane other).frame fun tenant ids found id inside => ?_
    rw [waiters, if_neg (Nat.ne_of_lt (sound.arrived found inside))]
  refine ⟨fun other => ?_, fun id queued => ?_, fun id late => ?_, fun id given => ?_, ?_, ?_⟩
  · rw [lanes]
    split
    · rename_i here
      subst here
      refine Lane.push_sound (framed other) (fun ids found id inside => sound.arrived found inside) ?_
      rw [waiters, if_pos rfl]
    · exact framed other
  · rw [waiters] at queued ⊢
    rw [lanes]
    split at queued
    · rename_i here
      subst here
      refine ⟨((queue.lane small).queues.lookup tenant).getD [] ++ [queue.next], ?_,
        List.mem_append_right _ List.mem_cons_self⟩
      rw [if_pos rfl, if_pos rfl, Lane.lookup_push, if_pos rfl]
    · rename_i other
      rw [if_neg other]
      obtain ⟨ids, found, inside⟩ := sound.complete id queued
      split
      · rename_i here
        rw [Lane.lookup_push]
        rw [here] at found
        split
        · rename_i same
          rw [same] at found
          refine ⟨_, rfl, List.mem_append_left _ ?_⟩
          rw [found]
          exact inside
        · exact ⟨ids, found, inside⟩
      · exact ⟨ids, found, inside⟩
  · have late : queue.next + 1 ≤ id := late
    rw [waiters, if_neg (by omega)]
    exact sound.later id (by omega)
  · rw [waiters] at given ⊢
    split at given
    · cases given
    · rename_i other
      rw [if_neg other]
      exact sound.granted id given
  · have counted := sound.counted
    show queue.count + 1 = _
    rw [lanes, lanes]
    cases small with
    | true =>
      rw [if_pos rfl, if_neg Bool.false_ne_true, Lane.count_push]
      omega
    | false =>
      rw [if_pos rfl, if_neg Bool.false_ne_true.symm, Lane.count_push]
      omega
  · have number := sound.number
    have more : (queue.enqueue tenant small).queued = queue.queued + 1 := by
      unfold queued
      show countUpTo _ (queue.next + 1) = _
      rw [countUpTo_succ, waiters, if_pos rfl, if_pos rfl]
      congr 1
      refine countUpTo_congr fun id inside => ?_
      rw [waiters, if_neg (Nat.ne_of_lt inside)]
    show queue.count + 1 = _
    omega

/-- **A waiter leaves its queue**, and is not queued any more. -/
theorem Sound.depart (sound : queue.Sound) {tenant : String} {ids : List Nat}
    (found : (queue.lane small).queues.lookup tenant = some ids) (inside : id ∈ ids)
    {after : BodyWaitQueue} {waiter : BodyMemoryWaiter}
    (others : ∀ other, other ≠ small → after.lane other = queue.lane other)
    (queues : (after.lane small).queues = ((queue.lane small).leave tenant (ids.erase id)).queues)
    (ringed : ∀ other ids, (after.lane small).queues.lookup other = some ids →
      other ∈ (after.lane small).tenantRoundRobin)
    (waiters : ∀ other, after.waiter other = if other = id then waiter else queue.waiter other)
    (left : waiter.state ≠ .queued) (done : waiter.state = .granted → waiter.done = true)
    (next : after.next = queue.next) (count : after.count = queue.count - 1) : after.Sound := by
  have lanes : ∀ other, after.lane other = if other = small then after.lane small else queue.lane other := by
    intro other
    split
    · rename_i same
      rw [same]
    · rename_i different
      exact others other different
  have own := (sound.lane small).member tenant ids found id inside
  have distinct : ids.Nodup := ((sound.lane small).sorted tenant ids found).imp Nat.ne_of_lt
  -- the waiter stands in no other place
  have gone : ∀ other name rest, (after.lane other).queues.lookup name = some rest → id ∉ rest := by
    intro other name rest here member
    rw [lanes] at here
    split at here
    · rw [queues, Lane.lookup_leave found] at here
      split at here
      · split at here
        · cases here
        · cases here
          exact (List.Nodup.not_mem_erase distinct) member
      · rename_i different
        have known := (sound.lane small).member name rest here id member
        rw [own] at known
        cases known
        exact different rfl
    · rename_i different
      have known := (sound.lane other).member name rest here id member
      rw [own] at known
      cases known
      exact different rfl
  have before : ∀ other, (after.lane other).Sound other queue.waiter := by
    intro other
    by_cases here : other = small
    · subst here
      exact Lane.leave_sound (sound.lane other) found List.erase_sublist queues ringed
    · rw [others other here]
      exact sound.lane other
  refine ⟨fun other => (before other).frame fun name rest here key member => ?_,
    fun key queued => ?_, fun key late => ?_, fun key given => ?_, ?_, ?_⟩
  · rw [waiters, if_neg]
    rintro rfl
    exact gone other name rest here member
  · rw [waiters] at queued ⊢
    split at queued
    · exact absurd queued left
    · rename_i different
      rw [if_neg different]
      obtain ⟨old, there, member⟩ := sound.complete key queued
      rw [lanes]
      split
      · rename_i here
        rw [queues, Lane.lookup_leave found]
        rw [here] at there
        split
        · rename_i same
          rw [same, found] at there
          cases there
          have stays := (List.mem_erase_of_ne different).mpr member
          rw [if_neg (List.ne_nil_of_mem stays)]
          exact ⟨_, rfl, stays⟩
        · exact ⟨old, there, member⟩
      · exact ⟨old, there, member⟩
  · rw [next] at late
    have here := sound.arrived found inside
    rw [waiters, if_neg (by omega)]
    exact sound.later key late
  · rw [waiters] at given ⊢
    split at given
    · rename_i same
      rw [if_pos same]
      exact done given
    · rename_i different
      rw [if_neg different]
      exact sound.granted key given
  · have counted := sound.counted
    have shorter : (after.lane small).count + 1 = (queue.lane small).count := by
      have fewer : (ids.erase id).length + 1 = ids.length := by
        have positive := List.length_pos_of_mem inside
        rw [List.length_erase_of_mem inside]
        omega
      have moved := Lane.count_leave found fewer
      unfold Lane.count at moved ⊢
      rw [queues]
      exact moved
    rw [count]
    cases small with
    | true =>
      rw [others false Bool.false_ne_true]
      omega
    | false =>
      rw [others true Bool.false_ne_true.symm]
      omega
  · have number := sound.number
    have fewer := queued_of_left next (sound.arrived found inside) (by rw [own])
      (by rw [waiters, if_pos rfl]; exact left)
      (fun other different => by rw [waiters, if_neg different])
    omega

/-! ### Promotion -/

/-- The queue after a waiter was taken from it and given the turn. -/
def give (small : Bool) (tenant : String) (ring : List String) (id : Nat) (rest : List Nat)
    (queue : BodyWaitQueue) : BodyWaitQueue :=
  ({ queue.setLane small ((queue.lane small).rotate tenant rest ring) with
    count := queue.count - 1 } : BodyWaitQueue).grant small id

/-- **Whom a lane turns to**: the first waiter of the first tenant in the ring that has one. -/
structure Turns (small : Bool) (queue : BodyWaitQueue) (id : Nat) (after : BodyWaitQueue) : Prop where
  idle : (queue.lane small).activeTurn = false
  first : ∃ stale tenant ring rest,
    (queue.lane small).tenantRoundRobin = stale ++ tenant :: ring ∧
    (∀ other ∈ stale, (queue.lane small).queues.lookup other = none) ∧
    (queue.lane small).queues.lookup tenant = some (id :: rest) ∧
    after = queue.give small tenant ring id rest

theorem Sound.no_waiters (sound : queue.Sound) (empty : (queue.lane small).tenantRoundRobin = [])
    (tenant : String) : (queue.lane small).queues.lookup tenant = none := by
  cases found : (queue.lane small).queues.lookup tenant with
  | none => rfl
  | some ids =>
    have inside := (sound.lane small).ringed tenant ids found
    rw [empty] at inside
    exact absurd inside List.not_mem_nil

theorem setLane_ring (empty : (queue.lane small).tenantRoundRobin = []) :
    queue.setLane small { queue.lane small with tenantRoundRobin := [] } = queue := by
  rw [← empty]
  unfold setLane
  rw [Function.update_eq_self]

theorem Sound.drop_tenant (sound : queue.Sound) {tenant : String} {ring : List String}
    (head : (queue.lane small).tenantRoundRobin = tenant :: ring)
    (stale : (queue.lane small).queues.lookup tenant = none) :
    (queue.setLane small { queue.lane small with tenantRoundRobin := ring }).Sound := by
  have lanes := sound.lane small
  refine sound.relane ⟨lanes.nonempty, lanes.sorted, lanes.member, fun other ids here => ?_⟩ rfl
  rcases List.mem_cons.mp (head ▸ lanes.ringed other ids here) with same | inside
  · rw [same, stale] at here
    cases here
  · exact inside

theorem promoteLoop_spec (sound : queue.Sound) {fuel : Nat}
    (enough : (queue.lane small).tenantRoundRobin.length ≤ fuel)
    (idle : (queue.lane small).activeTurn = false) :
    ((∀ tenant, (queue.lane small).queues.lookup tenant = none) ∧
        promoteLoop small fuel queue =
          queue.setLane small { queue.lane small with tenantRoundRobin := [] }) ∨
      ∃ id, Turns small queue id (promoteLoop small fuel queue) := by
  induction fuel generalizing queue with
  | zero =>
    have empty := List.eq_nil_of_length_eq_zero (Nat.le_zero.mp enough)
    exact Or.inl ⟨sound.no_waiters empty, (setLane_ring empty).symm⟩
  | succ fuel ih =>
    unfold promoteLoop
    cases head : (queue.lane small).tenantRoundRobin with
    | nil => exact Or.inl ⟨sound.no_waiters head, (setLane_ring head).symm⟩
    | cons tenant ring =>
      dsimp only
      cases found : (queue.lane small).queues.lookup tenant with
      | none =>
        -- a tenant without waiters
        rw [Option.getD_none]
        dsimp only
        rw [erase_of_none found]
        have lane : (queue.setLane small { queue.lane small with tenantRoundRobin := ring }).lane small =
            { queue.lane small with tenantRoundRobin := ring } := by
          rw [setLane_lane, if_pos rfl]
        rw [head, List.length_cons] at enough
        have next := ih (sound.drop_tenant head found) (by rw [lane]; exact Nat.le_of_succ_le_succ enough)
          (by rw [lane]; exact idle)
        rw [lane, setLane_setLane] at next
        refine next.imp id ?_
        rintro ⟨id, turns⟩
        obtain ⟨stale, other, rest, ids, split, without, has, after⟩ := turns.first
        rw [lane] at split without has
        refine ⟨id, idle, tenant :: stale, other, rest, ids, ?_, ?_, has, ?_⟩
        · rw [head]
          exact congrArg (tenant :: ·) split
        · intro name inside
          rcases List.mem_cons.mp inside with rfl | inside
          · exact found
          · exact without name inside
        · rw [after]
          unfold give
          rw [lane, setLane_setLane]
          rfl
      | some ids =>
        have lanes := sound.lane small
        cases ids with
        | nil => exact absurd rfl (lanes.nonempty tenant [] found)
        | cons id rest =>
          have known := lanes.member tenant _ found id List.mem_cons_self
          rw [Option.getD_some]
          dsimp only
          rw [setLane_waiter, known, if_neg (by simp)]
          exact Or.inr ⟨id, idle, [], tenant, ring, rest, head, nofun, found, rfl⟩

/-- **What `_promote` does**: nothing while a turn is active or promotion is off; else it turns to a
waiter, and if there is none it empties the ring. -/
theorem promote_spec (sound : queue.Sound) (small : Bool) :
    (((queue.lane small).activeTurn = true ∨ (queue.lane small).promotionEnabled = false) ∧
        queue.promote small = queue) ∨
      ((queue.lane small).activeTurn = false ∧ (queue.lane small).promotionEnabled = true ∧
        (∀ tenant, (queue.lane small).queues.lookup tenant = none) ∧
        queue.promote small = queue.setLane small { queue.lane small with tenantRoundRobin := [] }) ∨
      ((queue.lane small).promotionEnabled = true ∧ ∃ id, Turns small queue id (queue.promote small)) := by
  unfold promote
  cases active : (queue.lane small).activeTurn with
  | true => exact Or.inl ⟨Or.inl rfl, rfl⟩
  | false =>
    cases enabled : (queue.lane small).promotionEnabled with
    | false => exact Or.inl ⟨Or.inr rfl, rfl⟩
    | true =>
      refine Or.inr ?_
      have permitted : ¬((false || !true) = true) := Bool.false_ne_true
      rw [if_neg permitted]
      rcases promoteLoop_spec sound (Nat.le_add_right _ _) active with ⟨none, emptied⟩ | turns
      · exact Or.inl ⟨rfl, rfl, none, emptied⟩
      · exact Or.inr ⟨rfl, turns⟩

section Turn

variable {id : Nat} {after : BodyWaitQueue}

theorem Turns.queued (turns : Turns small queue id after) (sound : queue.Sound) :
    ∃ tenant, queue.waiter id = ⟨false, tenant, small, .queued⟩ := by
  obtain ⟨stale, tenant, ring, rest, -, -, found, -⟩ := turns.first
  exact ⟨tenant, (sound.lane small).member tenant _ found id List.mem_cons_self⟩

/-- It has the turn, and nothing else is different about the waiters. -/
theorem Turns.waiter (turns : Turns small queue id after) (other : Nat) :
    after.waiter other =
      if other = id then { queue.waiter id with state := .granted, done := true }
      else queue.waiter other := by
  obtain ⟨stale, tenant, ring, rest, -, -, -, rfl⟩ := turns.first
  exact setWaiter_waiter _ _ _ _

theorem Turns.lane_of_ne (turns : Turns small queue id after) {other : Bool} (different : other ≠ small) :
    after.lane other = queue.lane other := by
  obtain ⟨stale, tenant, ring, rest, -, -, -, rfl⟩ := turns.first
  unfold give grant
  show ((_ : BodyWaitQueue).setLane small _).lane other = _
  rw [setLane_lane, if_neg different]
  show ((queue.setLane small _).lane other) = _
  rw [setLane_lane, if_neg different]

theorem give_lane (small : Bool) (tenant : String) (ring : List String) (id : Nat) (rest : List Nat)
    (queue : BodyWaitQueue) :
    (queue.give small tenant ring id rest).lane small =
      { (queue.lane small).rotate tenant rest ring with activeTurn := true } := by
  unfold give grant
  show ((_ : BodyWaitQueue).setLane small _).lane small = _
  rw [setLane_lane, if_pos rfl]
  show ({ (queue.setLane small _).lane small with activeTurn := true } : Lane) = _
  rw [setLane_lane, if_pos rfl]

theorem Turns.active (turns : Turns small queue id after) : (after.lane small).activeTurn = true := by
  obtain ⟨stale, tenant, ring, rest, -, -, -, rfl⟩ := turns.first
  rw [give_lane]

theorem Turns.sound (turns : Turns small queue id after) (sound : queue.Sound) : after.Sound := by
  have waiters := turns.waiter
  have others : ∀ other, other ≠ small → after.lane other = queue.lane other :=
    fun other different => turns.lane_of_ne different
  obtain ⟨stale, tenant, ring, rest, split, without, found, rfl⟩ := turns.first
  have queues : ((queue.give small tenant ring id rest).lane small).queues =
      ((queue.lane small).leave tenant rest).queues := by
    rw [give_lane]
    rfl
  refine sound.depart found List.mem_cons_self others ?_ ?_ waiters nofun (fun _ => rfl) rfl rfl
  · rw [queues, List.erase_cons_head]
  · intro other ids here
    rw [queues, Lane.lookup_leave found] at here
    rw [give_lane]
    show other ∈ if rest = [] then ring else ring ++ [tenant]
    split at here
    · rename_i same
      split at here
      · cases here
      · rename_i nonempty
        rw [if_neg nonempty, same]
        exact List.mem_append_right _ List.mem_cons_self
    · rename_i different
      have inside := (sound.lane small).ringed other ids here
      rw [split] at inside
      have ahead : other ∈ ring := by
        rcases List.mem_append.mp inside with old | inside
        · rw [without other old] at here
          cases here
        · exact (List.mem_cons.mp inside).resolve_left different
      split
      · exact ahead
      · exact List.mem_append_left _ ahead

end Turn

theorem promote_sound (sound : queue.Sound) (small : Bool) : (queue.promote small).Sound := by
  rcases promote_spec sound small with ⟨-, same⟩ | ⟨-, -, none, emptied⟩ | ⟨-, id, turns⟩
  · rw [same]
    exact sound
  · rw [emptied]
    have lanes := sound.lane small
    exact sound.relane ⟨lanes.nonempty, lanes.sorted, lanes.member,
      fun tenant ids found => absurd (found.symm.trans (none tenant)) nofun⟩ rfl
  · exact turns.sound sound

theorem promote_next (sound : queue.Sound) (small : Bool) :
    (queue.promote small).next = queue.next := by
  rcases promote_spec sound small with ⟨-, same⟩ | ⟨-, -, -, emptied⟩ | ⟨-, id, turns⟩
  · rw [same]
  · rw [emptied]
    rfl
  · obtain ⟨stale, tenant, ring, rest, -, -, -, equal⟩ := turns.first
    rw [equal]
    rfl

/-! ### Leaving -/

/-- **What the queue is without a waiter that was queued.** -/
structure Departed (queue : BodyWaitQueue) (id : Nat) (after : BodyWaitQueue) : Prop where
  others : ∀ other, other ≠ (queue.waiter id).smallLane → after.lane other = queue.lane other
  lane : ∃ ids, (queue.lane (queue.waiter id).smallLane).queues.lookup (queue.waiter id).tenantKey =
      some ids ∧ id ∈ ids ∧
    after.lane (queue.waiter id).smallLane =
      (queue.lane (queue.waiter id).smallLane).leave (queue.waiter id).tenantKey (ids.erase id)
  waiter : ∀ other, after.waiter other =
    if other = id then { queue.waiter id with state := .abandoned } else queue.waiter other
  next : after.next = queue.next
  sound : after.Sound

theorem dequeue_spec (sound : queue.Sound) (queued : (queue.waiter id).state = .queued) :
    Departed queue id (queue.dequeue id) := by
  obtain ⟨ids, found, inside⟩ := sound.complete id queued
  have result : queue.dequeue id =
      { (queue.setWaiter id { queue.waiter id with state := .abandoned }).setLane
          (queue.waiter id).smallLane
          ((queue.lane (queue.waiter id).smallLane).leave (queue.waiter id).tenantKey (ids.erase id)) with
        count := queue.count - 1 } := by
    unfold dequeue
    simp only [setWaiter_lane, found, if_pos inside]
    rfl
  have lanes : ∀ other, (queue.dequeue id).lane other =
      if other = (queue.waiter id).smallLane then
        (queue.lane (queue.waiter id).smallLane).leave (queue.waiter id).tenantKey (ids.erase id)
      else queue.lane other := by
    intro other
    rw [result]
    exact setLane_lane _ _ _ _
  have waiters : ∀ other, (queue.dequeue id).waiter other =
      if other = id then { queue.waiter id with state := .abandoned } else queue.waiter other := by
    intro other
    rw [result]
    exact setWaiter_waiter _ _ _ _
  have own : (queue.dequeue id).lane (queue.waiter id).smallLane =
      (queue.lane (queue.waiter id).smallLane).leave (queue.waiter id).tenantKey (ids.erase id) := by
    rw [lanes, if_pos rfl]
  have others : ∀ other, other ≠ (queue.waiter id).smallLane →
      (queue.dequeue id).lane other = queue.lane other := by
    intro other different
    rw [lanes, if_neg different]
  refine ⟨others, ⟨ids, found, inside, own⟩, waiters, by rw [result]; rfl, ?_⟩
  refine sound.depart found inside others (by rw [own]) ?_ waiters nofun nofun (by rw [result]; rfl)
    (by rw [result])
  intro other now here
  rw [own] at here ⊢
  show other ∈ (queue.lane (queue.waiter id).smallLane).tenantRoundRobin
  rw [Lane.lookup_leave found] at here
  split at here
  · rename_i same
    rw [same]
    exact (sound.lane _).ringed _ ids found
  · exact (sound.lane _).ringed other now here

theorem Sound.switch (sound : queue.Sound) (small activeTurn promotionEnabled : Bool) :
    (queue.setLane small { queue.lane small with activeTurn, promotionEnabled }).Sound :=
  sound.relane ((sound.lane small).switch activeTurn promotionEnabled) rfl

theorem Sound.abandon (sound : queue.Sound) (granted : (queue.waiter id).state = .granted) :
    (queue.setWaiter id { queue.waiter id with state := .abandoned }).Sound := by
  have elsewhere : ∀ other, (queue.waiter other).state = .queued → other ≠ id := by
    rintro other queued rfl
    cases queued.symm.trans granted
  refine ⟨fun small => (sound.lane small).frame fun tenant ids found other inside => ?_,
    fun other queued => ?_, fun other late => ?_, fun other given => ?_, sound.counted, ?_⟩
  · rw [setWaiter_waiter, if_neg]
    refine elsewhere other ?_
    rw [(sound.lane small).member tenant ids found other inside]
  · rw [setWaiter_waiter] at queued ⊢
    split at queued
    · cases queued
    · rename_i different
      rw [if_neg different]
      exact sound.complete other queued
  · rw [setWaiter_waiter]
    split
    · rename_i same
      rw [← same, sound.later other late] at granted
      cases granted
    · exact sound.later other late
  · rw [setWaiter_waiter] at given ⊢
    split at given
    · cases given
    · rename_i different
      rw [if_neg different]
      exact sound.granted other given
  · have same : (queue.setWaiter id { queue.waiter id with state := .abandoned }).queued =
        queue.queued := by
      refine queued_congr rfl fun other => ?_
      rw [setWaiter_waiter]
      split
      · rename_i same
        rw [same, granted]
        exact ⟨nofun, nofun⟩
      · exact Iff.rfl
    rw [same]
    exact sound.number

theorem finishTurn_eq (queue : BodyWaitQueue) {small : Bool}
    (active : (queue.lane small).activeTurn = true) :
    queue.finishTurn small =
      some ((queue.setLane small { queue.lane small with activeTurn := false }).promote small) :=
  if_pos active

theorem remove_queued (queued : (queue.waiter id).state = .queued) :
    queue.remove id = queue.dequeue id := by
  unfold remove
  simp only [queued]

theorem remove_granted (granted : (queue.waiter id).state = .granted)
    (active : (queue.lane (queue.waiter id).smallLane).activeTurn = true) :
    queue.remove id =
      ((queue.setWaiter id { queue.waiter id with state := .abandoned }).setLane
        (queue.waiter id).smallLane
        { queue.lane (queue.waiter id).smallLane with activeTurn := false }).promote
          (queue.waiter id).smallLane := by
  unfold remove
  simp only [granted]
  rw [finishTurn_eq (queue.setWaiter id { queue.waiter id with state := .abandoned }) active]
  rfl

end BodyWaitQueue

end UniApi.Admission
