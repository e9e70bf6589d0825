/-
**The tenants of the body-memory wait queue take turns.**

Any number of callers use one queue: a caller waits in `wait_turn`, which returns once its waiter was
granted, or raises because of a time-out or a cancellation; a caller whose call returned has the turn
until it calls `finish_turn`. A step is what happens between two suspensions.

* `step_sound`, `run_sound`: queues, counts and turns are right in every run;
* `RingExact`: a ring has the tenants with waiters, each once;
* `step_served`: what a step does to the queues and the ring of a lane, and whom it gives the turn;
* `served_between`, `served_in_order`: turns between tenants, and within one;
* `fair_iff`: tenants are treated fairly exactly while none loses its last waiter without a turn.
-/

import UniApi.Admission.BodyWaitQueue

namespace UniApi.Admission

open UniApi.Lib UniApi.Lib.Table

namespace TenantTurns

/-! ### Callers -/

/-- Where the caller of a waiter is. -/
inductive Caller where
  | absent
  /-- In `wait_turn`. -/
  | waiting
  /-- `wait_turn` returned, and `finish_turn` was not called. -/
  | running
  | gone
  deriving DecidableEq

structure System where
  queue : BodyWaitQueue
  caller : Nat → Caller

inductive Event where
  /-- `wait_turn` is called; whether `timeout_seconds` is positive. -/
  | waitTurn (tenantKey : String) (small : Bool) (timeoutPositive : Bool)
  /-- `wait_turn` returns. -/
  | returned (id : Nat)
  /-- `wait_turn` raises `TimeoutError`. -/
  | timedOut (id : Nat)
  /-- `wait_turn` is cancelled. -/
  | cancelled (id : Nat)
  | finishTurn (id : Nat)
  | blockUntilRelease (small : Bool)
  | notifyMemoryReleased

namespace System

/-- Nobody waits. -/
def fresh (limit : Option Nat) : System := ⟨.fresh limit, fun _ => .absent⟩

/-- A caller moves on. -/
def move (id : Nat) (caller : Caller) (queue : BodyWaitQueue) (system : System) : System :=
  ⟨queue, Function.update system.caller id caller⟩

/-- A waiting caller gives up: `_remove`. -/
def giveUp (id : Nat) (system : System) : System :=
  if system.caller id = .waiting then system.move id .gone (system.queue.remove id) else system

/-- A caller calls `finish_turn`. -/
def finish (id : Nat) (system : System) : System :=
  if system.caller id = .running then
    system.move id .gone
      ((system.queue.finishTurn (system.queue.waiter id).smallLane).getD system.queue)
  else system

/-- **One step.** -/
def step (system : System) : Event → System
  | .waitTurn tenantKey small timeoutPositive =>
    match system.queue.waitTurn tenantKey small timeoutPositive with
    | (some id, queue) => system.move id .waiting queue
    | (none, queue) => { system with queue }
  | .returned id =>
    if system.caller id = .waiting ∧ (system.queue.waiter id).done = true then
      system.move id .running system.queue
    else system
  | .timedOut id =>
    if system.caller id = .waiting then
      giveUp id { system with
        queue := { system.queue with timeouts := system.queue.timeouts + 1 } }
    else system
  | .cancelled id => system.giveUp id
  | .finishTurn id => system.finish id
  | .blockUntilRelease small => { system with queue := system.queue.blockUntilRelease small }
  | .notifyMemoryReleased => { system with queue := system.queue.notifyMemoryReleased }

/-- The steps of a run. -/
def run (limit : Option Nat) (events : List Event) : System := events.foldl step (fresh limit)

/-! ### The invariant -/

/-- A waiter has been granted the turn of its lane and has not given it back. -/
def Outstanding (system : System) (small : Bool) (id : Nat) : Prop :=
  (system.queue.waiter id).smallLane = small ∧ (system.queue.waiter id).state = .granted ∧
    (system.caller id = .waiting ∨ system.caller id = .running)

/-- The turn of a lane: nobody has it, or one waiter. -/
def Turn (system : System) (small : Bool) : Prop :=
  ((system.queue.lane small).activeTurn = false ∧ ∀ id, ¬ system.Outstanding small id) ∨
    ((system.queue.lane small).activeTurn = true ∧
      ∃ id, ∀ other, system.Outstanding small other ↔ other = id)

/-- **The invariant.** -/
structure Sound (system : System) : Prop where
  queue : system.queue.Sound
  waits : ∀ id, (system.queue.waiter id).state = .queued → system.caller id = .waiting
  waiting : ∀ id, system.caller id = .waiting → (system.queue.waiter id).state ≠ .abandoned
  running : ∀ id, system.caller id = .running → (system.queue.waiter id).state = .granted
  absent : ∀ id, system.queue.next ≤ id → system.caller id = .absent
  turn : ∀ small, system.Turn small

theorem fresh_sound (limit : Option Nat) : (fresh limit).Sound where
  queue := BodyWaitQueue.fresh_sound limit
  waits := nofun
  waiting := nofun
  running := nofun
  absent _ _ := rfl
  turn _ := Or.inl ⟨rfl, fun _ given => by cases given.2.1⟩

variable {system : System}

/-- The turn of a lane depends on its flag and on who is outstanding. -/
theorem Turn.congr {small : Bool} (turn : system.Turn small) {after : System}
    (active : (after.queue.lane small).activeTurn = (system.queue.lane small).activeTurn)
    (same : ∀ id, after.Outstanding small id ↔ system.Outstanding small id) : after.Turn small := by
  unfold Turn
  rw [active]
  simp only [same]
  exact turn

/-- **`_promote` keeps the invariant.** -/
theorem Sound.promote (sound : system.Sound) (small : Bool) :
    ({ system with queue := system.queue.promote small } : System).Sound := by
  have after := BodyWaitQueue.promote_sound sound.queue small
  rcases BodyWaitQueue.promote_spec sound.queue small with ⟨-, same⟩ | ⟨-, -, -, emptied⟩ | ⟨-, id, turns⟩
  · rw [same]
    exact sound
  · rw [emptied] at after ⊢
    refine ⟨after, sound.waits, sound.waiting, sound.running, sound.absent, fun other => ?_⟩
    refine (sound.turn other).congr ?_ fun id => Iff.rfl
    show ((system.queue.setLane small _).lane other).activeTurn = _
    rw [BodyWaitQueue.setLane_lane]
    split
    · rename_i same
      rw [same]
    · rfl
  · obtain ⟨tenant, queued⟩ := turns.queued sound.queue
    have state : (system.queue.waiter id).state = .queued := by rw [queued]
    have called := sound.waits id state
    have next := BodyWaitQueue.promote_next sound.queue small
    refine ⟨after, fun other => ?_, fun other => ?_, fun other => ?_, fun other => ?_, fun lane => ?_⟩
    · show ((system.queue.promote small).waiter other).state = _ → _
      rw [turns.waiter]
      split
      · exact nofun
      · exact sound.waits other
    · intro here
      show ((system.queue.promote small).waiter other).state ≠ _
      rw [turns.waiter]
      split
      · exact nofun
      · exact sound.waiting other here
    · intro here
      show ((system.queue.promote small).waiter other).state = _
      rw [turns.waiter]
      split
      · rfl
      · exact sound.running other here
    · intro late
      exact sound.absent other (next ▸ late)
    · have outstanding : ∀ other, ({ system with queue := system.queue.promote small } : System).Outstanding
          lane other ↔ (other = id ∧ lane = small) ∨ system.Outstanding lane other := by
        intro other
        unfold Outstanding
        dsimp only
        rw [turns.waiter]
        by_cases same : other = id
        · subst same
          rw [if_pos rfl, queued, called]
          simp [eq_comm]
        · rw [if_neg same]
          simp [same]
      by_cases here : lane = small
      · subst here
        rcases sound.turn lane with ⟨-, nobody⟩ | ⟨active, -⟩
        · refine Or.inr ⟨turns.active, id, fun other => ?_⟩
          rw [outstanding]
          exact ⟨fun given => (given.resolve_right (nobody other)).1, fun same => Or.inl ⟨same, rfl⟩⟩
        · rw [turns.idle] at active
          cases active
      · refine (sound.turn lane).congr ?_ fun other => ?_
        · show ((system.queue.promote small).lane lane).activeTurn = _
          rw [turns.lane_of_ne here]
        · rw [outstanding]
          simp [here]

/-- A caller that is not outstanding moves on, and its turn is free. -/
theorem Sound.free (sound : system.Sound) {id : Nat} {small : Bool} (given : system.Outstanding small id)
    {queue : BodyWaitQueue} (queues : queue.Sound)
    (waiters : ∀ other, other ≠ id → queue.waiter other = system.queue.waiter other)
    (own : (queue.waiter id).state ≠ .queued)
    (others : ∀ other, other ≠ small → (queue.lane other).activeTurn =
      (system.queue.lane other).activeTurn)
    (idle : (queue.lane small).activeTurn = false) (next : queue.next = system.queue.next) :
    (system.move id .gone queue).Sound := by
  have callers : ∀ other, (system.move id .gone queue).caller other =
      if other = id then .gone else system.caller other :=
    fun other => Function.update_apply _ _ _ _
  have outstanding : ∀ lane other, (system.move id .gone queue).Outstanding lane other ↔
      other ≠ id ∧ system.Outstanding lane other := by
    intro lane other
    unfold Outstanding
    rw [callers]
    by_cases same : other = id
    · simp [same]
    · rw [if_neg same]
      show (queue.waiter other).smallLane = lane ∧ (queue.waiter other).state = _ ∧ _ ↔ _
      rw [waiters other same]
      simp [same]
  refine ⟨queues, fun other queued => ?_, fun other here => ?_, fun other here => ?_, fun other late => ?_,
    fun lane => ?_⟩
  · have queued : (queue.waiter other).state = .queued := queued
    rw [callers]
    split
    · rename_i same
      rw [same] at queued
      exact absurd queued own
    · rename_i different
      rw [waiters other different] at queued
      exact sound.waits other queued
  · rw [callers] at here
    split at here
    · cases here
    · rename_i different
      show (queue.waiter other).state ≠ _
      rw [waiters other different]
      exact sound.waiting other here
  · rw [callers] at here
    split at here
    · cases here
    · rename_i different
      show (queue.waiter other).state = _
      rw [waiters other different]
      exact sound.running other here
  · have late : queue.next ≤ other := late
    rw [callers, if_neg]
    · exact sound.absent other (next ▸ late)
    · rintro rfl
      have unknown := sound.absent other (next ▸ late)
      rcases given.2.2 with here | here <;> cases unknown.symm.trans here
  · by_cases here : lane = small
    · subst here
      refine Or.inl ⟨idle, fun other => ?_⟩
      rw [outstanding]
      rintro ⟨different, other'⟩
      rcases sound.turn lane with ⟨-, nobody⟩ | ⟨-, holder, only⟩
      · exact nobody id given
      · exact different (((only other).mp other').trans ((only id).mp given).symm)
    · refine (sound.turn lane).congr (others lane here) fun other => ?_
      rw [outstanding]
      refine ⟨And.right, fun held => ⟨?_, held⟩⟩
      rintro rfl
      exact here (held.1.symm.trans given.1)

theorem Sound.active (sound : system.Sound) {id : Nat} {small : Bool}
    (given : system.Outstanding small id) : (system.queue.lane small).activeTurn = true := by
  rcases sound.turn small with ⟨-, nobody⟩ | ⟨active, -⟩
  · exact absurd given (nobody id)
  · exact active

/-- **`finish_turn` by the caller that has the turn.** -/
theorem finish_sound (sound : system.Sound) (id : Nat) : (system.finish id).Sound := by
  unfold finish
  split
  · rename_i running
    have given : system.Outstanding (system.queue.waiter id).smallLane id :=
      ⟨rfl, sound.running id running, Or.inr running⟩
    rw [BodyWaitQueue.finishTurn_eq _ (sound.active given), Option.getD_some]
    have freed := sound.free given
      (sound.queue.switch (system.queue.waiter id).smallLane false
        (system.queue.lane (system.queue.waiter id).smallLane).promotionEnabled)
      (fun _ _ => rfl) (by
        show (system.queue.waiter id).state ≠ _
        rw [sound.running id running]
        exact nofun) (fun other different => by
        rw [BodyWaitQueue.setLane_lane, if_neg different]) (by
        rw [BodyWaitQueue.setLane_lane, if_pos rfl]) rfl
    exact freed.promote _
  · exact sound

/-- **A caller whose waiter is queued gives up.** -/
theorem Sound.withdraw (sound : system.Sound) {id : Nat}
    (queued : (system.queue.waiter id).state = .queued) :
    (system.move id .gone (system.queue.dequeue id)).Sound := by
  have gone := BodyWaitQueue.dequeue_spec sound.queue queued
  have callers : ∀ other, (system.move id .gone (system.queue.dequeue id)).caller other =
      if other = id then .gone else system.caller other :=
    fun other => Function.update_apply _ _ _ _
  have waiters : ∀ other, (system.move id .gone (system.queue.dequeue id)).queue.waiter other =
      if other = id then { system.queue.waiter id with state := .abandoned }
      else system.queue.waiter other := gone.waiter
  have outstanding : ∀ lane other,
      (system.move id .gone (system.queue.dequeue id)).Outstanding lane other ↔
        system.Outstanding lane other := by
    intro lane other
    unfold Outstanding
    rw [callers, waiters]
    by_cases same : other = id
    · subst same
      simp [queued]
    · rw [if_neg same, if_neg same]
  refine ⟨gone.sound, fun other here => ?_, fun other here => ?_, fun other here => ?_,
    fun other late => ?_, fun lane => (sound.turn lane).congr ?_ (outstanding lane)⟩
  · rw [waiters] at here
    rw [callers]
    split at here
    · cases here
    · rename_i different
      rw [if_neg different]
      exact sound.waits other here
  · rw [callers] at here
    rw [waiters]
    split at here
    · cases here
    · rename_i different
      rw [if_neg different]
      exact sound.waiting other here
  · rw [callers] at here
    rw [waiters]
    split at here
    · cases here
    · rename_i different
      rw [if_neg different]
      exact sound.running other here
  · have late : (system.queue.dequeue id).next ≤ other := late
    rw [gone.next] at late
    have unknown := sound.absent other late
    rw [callers, if_neg]
    · exact unknown
    · rintro rfl
      cases unknown.symm.trans (sound.waits other queued)
  · obtain ⟨ids, -, -, own⟩ := gone.lane
    show ((system.queue.dequeue id).lane lane).activeTurn = _
    by_cases here : lane = (system.queue.waiter id).smallLane
    · rw [here, own]
      rfl
    · rw [gone.others lane here]

/-- **`_remove` of a caller that waits.** -/
theorem giveUp_sound (sound : system.Sound) (id : Nat) : (system.giveUp id).Sound := by
  unfold giveUp
  split
  · rename_i waiting
    have known := sound.waiting id waiting
    cases state : (system.queue.waiter id).state with
    | abandoned => exact absurd state known
    | granted =>
      have given : system.Outstanding (system.queue.waiter id).smallLane id := ⟨rfl, state, Or.inl waiting⟩
      rw [BodyWaitQueue.remove_granted state (sound.active given)]
      have freed := sound.free given
        ((sound.queue.abandon state).switch (system.queue.waiter id).smallLane false
          (system.queue.lane (system.queue.waiter id).smallLane).promotionEnabled)
        (fun other different => by
          rw [BodyWaitQueue.setLane_waiter, BodyWaitQueue.setWaiter_waiter, if_neg different]) (by
          rw [BodyWaitQueue.setLane_waiter, BodyWaitQueue.setWaiter_waiter, if_pos rfl]
          exact nofun) (fun other different => by
          rw [BodyWaitQueue.setLane_lane, if_neg different]
          rfl) (by
          rw [BodyWaitQueue.setLane_lane, if_pos rfl]) rfl
      exact freed.promote _
    | queued =>
      rw [BodyWaitQueue.remove_queued state]
      exact sound.withdraw state
  · exact sound

theorem Sound.counters (sound : system.Sound) (timeouts queueFull : Nat) :
    ({ system with queue := { system.queue with timeouts, queueFull } } : System).Sound := by
  have queue := sound.queue
  exact ⟨⟨queue.lane, queue.complete, queue.later, queue.granted, queue.counted, queue.number⟩, sound.waits,
    sound.waiting, sound.running, sound.absent, sound.turn⟩

theorem Sound.switch (sound : system.Sound) (small promotionEnabled : Bool) :
    ({ system with
      queue := system.queue.setLane small
        { system.queue.lane small with promotionEnabled } } : System).Sound := by
  refine ⟨sound.queue.switch small (system.queue.lane small).activeTurn promotionEnabled, sound.waits,
    sound.waiting, sound.running, sound.absent, fun other => (sound.turn other).congr ?_ fun id => Iff.rfl⟩
  show ((system.queue.setLane small _).lane other).activeTurn = _
  rw [BodyWaitQueue.setLane_lane]
  split
  · rename_i same
    rw [same]
  · rfl

/-- **A waiter arrives.** -/
theorem Sound.arrive (sound : system.Sound) (tenant : String) (small : Bool) :
    (system.move system.queue.next .waiting (system.queue.enqueue tenant small)).Sound := by
  have callers : ∀ other,
      (system.move system.queue.next .waiting (system.queue.enqueue tenant small)).caller other =
        if other = system.queue.next then .waiting else system.caller other :=
    fun other => Function.update_apply _ _ _ _
  have waiters : ∀ other,
      (system.move system.queue.next .waiting (system.queue.enqueue tenant small)).queue.waiter other =
        if other = system.queue.next then ⟨false, tenant, small, .queued⟩
        else system.queue.waiter other :=
    fun other => BodyWaitQueue.setWaiter_waiter _ _ _ _
  have unknown := sound.queue.later system.queue.next (Nat.le_refl _)
  refine ⟨BodyWaitQueue.enqueue_sound sound.queue tenant small, fun other here => ?_,
    fun other here => ?_, fun other here => ?_, fun other late => ?_,
    fun lane => (sound.turn lane).congr ?_ fun other => ?_⟩
  · rw [waiters] at here
    rw [callers]
    split
    · rfl
    · rename_i different
      rw [if_neg different] at here
      exact sound.waits other here
  · rw [callers] at here
    rw [waiters]
    split
    · exact nofun
    · rename_i different
      rw [if_neg different] at here
      exact sound.waiting other here
  · rw [callers] at here
    rw [waiters]
    split at here
    · cases here
    · rename_i different
      rw [if_neg different]
      exact sound.running other here
  · have late : system.queue.next + 1 ≤ other := late
    rw [callers, if_neg (by omega)]
    exact sound.absent other (by omega)
  · show ((system.queue.enqueue tenant small).lane lane).activeTurn = _
    have lanes : (system.queue.enqueue tenant small).lane lane =
        if lane = small then (system.queue.lane small).push tenant system.queue.next
        else system.queue.lane lane := BodyWaitQueue.setLane_lane _ _ _ _
    rw [lanes]
    split
    · rename_i same
      rw [same]
      unfold Lane.push
      split <;> rfl
    · rfl
  · unfold Outstanding
    rw [callers, waiters]
    by_cases same : other = system.queue.next
    · subst same
      simp [unknown]
    · rw [if_neg same, if_neg same]

/-- **`wait_turn` returns.** -/
theorem Sound.return (sound : system.Sound) {id : Nat} (waiting : system.caller id = .waiting)
    (done : (system.queue.waiter id).done = true) : (system.move id .running system.queue).Sound := by
  have callers : ∀ other, (system.move id .running system.queue).caller other =
      if other = id then .running else system.caller other :=
    fun other => Function.update_apply _ _ _ _
  have granted : (system.queue.waiter id).state = .granted := by
    cases state : (system.queue.waiter id).state with
    | granted => rfl
    | abandoned => exact absurd state (sound.waiting id waiting)
    | queued =>
      obtain ⟨ids, found, inside⟩ := sound.queue.complete id state
      rw [(sound.queue.lane _).member _ ids found id inside] at done
      cases done
  refine ⟨sound.queue, fun other here => ?_, fun other here => ?_, fun other here => ?_,
    fun other late => ?_, fun lane => (sound.turn lane).congr rfl fun other => ?_⟩
  · rw [callers]
    split
    · rename_i same
      rw [same] at here
      cases here.symm.trans granted
    · exact sound.waits other here
  · rw [callers] at here
    split at here
    · cases here
    · exact sound.waiting other here
  · rw [callers] at here
    split at here
    · rename_i same
      rw [same]
      exact granted
    · exact sound.running other here
  · rw [callers, if_neg]
    · exact sound.absent other late
    · rintro rfl
      cases (sound.absent other late).symm.trans waiting
  · unfold Outstanding
    rw [callers]
    by_cases same : other = id
    · subst same
      simp [waiting, move]
    · rw [if_neg same]
      exact Iff.rfl

/-- **One step keeps the invariant.** -/
theorem step_sound (sound : system.Sound) (event : Event) : (system.step event).Sound := by
  cases event with
  | waitTurn tenantKey small timeoutPositive =>
    unfold step BodyWaitQueue.waitTurn
    cases timeoutPositive with
    | false => exact sound
    | true =>
      dsimp only
      rw [if_neg (by exact Bool.false_ne_true)]
      by_cases full : system.queue.limit.any fun limit => (limit : Int) ≤ system.queue.count
      · rw [if_pos full]
        exact sound.counters _ _
      · rw [if_neg full]
        exact (sound.arrive _ small).promote small
  | returned id =>
    unfold step
    dsimp only
    split
    · rename_i here
      exact sound.return here.1 here.2
    · exact sound
  | timedOut id =>
    unfold step
    dsimp only
    split
    · exact giveUp_sound (sound.counters _ _) id
    · exact sound
  | cancelled id => exact giveUp_sound sound id
  | finishTurn id => exact finish_sound sound id
  | blockUntilRelease small => exact sound.switch small false
  | notifyMemoryReleased =>
    exact (((sound.switch true true).promote true).switch false true).promote false

/-- **Every run keeps the invariant.** -/
theorem run_sound (limit : Option Nat) (events : List Event) : (run limit events).Sound :=
  List.foldlRecOn events step (fresh_sound limit) fun _ sound event _ => step_sound sound event

end System

/-! ### What a step does to a lane -/

/-- A call before it promotes: a waiter joins a tenant's queue, or leaves one that keeps others. -/
inductive Prepared (next : Nat) (lane after : Lane) : Prop
  | same (queues : after.queues = lane.queues)
      (ring : after.tenantRoundRobin = lane.tenantRoundRobin)
  | push (tenant : String) (queues : after.queues = (lane.push tenant next).queues)
      (ring : after.tenantRoundRobin = (lane.push tenant next).tenantRoundRobin)
  | leave {tenant : String} {ids : List Nat} {id : Nat}
      (found : lane.queues.lookup tenant = some ids) (inside : id ∈ ids) (keeps : ids.erase id ≠ [])
      (queues : after.queues = (lane.leave tenant (ids.erase id)).queues)
      (ring : after.tenantRoundRobin = lane.tenantRoundRobin)

/-- A promotion: the tenant and the waiter that were given the turn. -/
inductive Promoted (lane after : Lane) : Option (String × Nat) → Prop
  | same (queues : after.queues = lane.queues) (ring : after.tenantRoundRobin = lane.tenantRoundRobin) :
      Promoted lane after none
  | emptied (without : ∀ tenant, lane.queues.lookup tenant = none) (queues : after.queues = lane.queues)
      (ring : after.tenantRoundRobin = []) : Promoted lane after none
  | turn {stale : List String} {tenant : String} {ring : List String} {id : Nat} {rest : List Nat}
      (split : lane.tenantRoundRobin = stale ++ tenant :: ring)
      (without : ∀ other ∈ stale, lane.queues.lookup other = none)
      (found : lane.queues.lookup tenant = some (id :: rest))
      (queues : after.queues = (lane.leave tenant rest).queues)
      (rotated : after.tenantRoundRobin = if rest = [] then ring else ring ++ [tenant]) :
      Promoted lane after (some (tenant, id))

/-- A waiter of a tenant is given the turn of a lane. -/
def Grants (before after : BodyWaitQueue) (small : Bool) (tenant : String) (id : Nat) : Prop :=
  (before.waiter id).done = false ∧ after.waiter id = ⟨true, tenant, small, .granted⟩

/-- The step gives the turn of a lane to a waiter of a tenant. -/
def System.Gives (system : System) (event : Event) (small : Bool) (tenant : String) (id : Nat) : Prop :=
  Grants system.queue (system.step event).queue small tenant id

section Lanes

variable {queue : BodyWaitQueue}

/-- **One lane is promoted.** -/
theorem promoted (sound : queue.Sound) (small : Bool) :
    ∃ granted, Promoted (queue.lane small) ((queue.promote small).lane small) granted ∧
      ∀ tenant id, Grants queue (queue.promote small) small tenant id ↔ granted = some (tenant, id) := by
  have nothing : ∀ tenant id, ¬ Grants queue queue small tenant id := by
    rintro tenant id ⟨before, after⟩
    rw [after] at before
    cases before
  rcases BodyWaitQueue.promote_spec sound small with ⟨-, same⟩ | ⟨-, -, without, emptied⟩ | ⟨-, id, turns⟩
  · rw [same]
    exact ⟨none, .same rfl rfl, fun tenant id => ⟨fun given => absurd given (nothing tenant id), nofun⟩⟩
  · rw [emptied]
    refine ⟨none, .emptied without ?_ ?_,
      fun tenant id => ⟨fun given => absurd given (nothing tenant id), nofun⟩⟩
    · rw [BodyWaitQueue.setLane_lane, if_pos rfl]
    · rw [BodyWaitQueue.setLane_lane, if_pos rfl]
  · obtain ⟨stale, tenant, ring, rest, split, without, found, after⟩ := turns.first
    have known := (sound.lane small).member tenant _ found id List.mem_cons_self
    refine ⟨some (tenant, id), .turn split without found ?_ ?_, fun name other => ?_⟩
    · rw [after, BodyWaitQueue.give_lane]
      rfl
    · rw [after, BodyWaitQueue.give_lane]
      rfl
    · unfold Grants
      rw [turns.waiter]
      by_cases same : other = id
      · subst same
        rw [if_pos rfl, known]
        simp
      · rw [if_neg same]
        constructor
        · rintro ⟨before, done⟩
          rw [done] at before
          cases before
        · intro equal
          cases equal
          exact absurd rfl same

/-- A promotion changes a waiter only when it gives it the turn. -/
theorem promoted_waiter (sound : queue.Sound) (small : Bool) (id : Nat) :
    (queue.promote small).waiter id = queue.waiter id ∨
      ((queue.waiter id).done = false ∧ ((queue.promote small).waiter id).done = true ∧
        ((queue.promote small).waiter id).smallLane = small) := by
  rcases BodyWaitQueue.promote_spec sound small with ⟨-, same⟩ | ⟨-, -, -, emptied⟩ | ⟨-, key, turns⟩
  · rw [same]
    exact Or.inl rfl
  · rw [emptied]
    exact Or.inl rfl
  · obtain ⟨tenant, queued⟩ := turns.queued sound
    rw [turns.waiter]
    split
    · rename_i same
      rw [same, queued]
      exact Or.inr ⟨rfl, rfl, rfl⟩
    · exact Or.inl rfl

theorem promoted_other (sound : queue.Sound) {small other : Bool} (different : other ≠ small) :
    (queue.promote small).lane other = queue.lane other := by
  rcases BodyWaitQueue.promote_spec sound small with ⟨-, same⟩ | ⟨-, -, -, emptied⟩ | ⟨-, id, turns⟩
  · rw [same]
  · rw [emptied, BodyWaitQueue.setLane_lane, if_neg different]
  · exact turns.lane_of_ne different

/-- What a call does to a lane and whom it gives its turn. -/
def Served (before after : BodyWaitQueue) (small : Bool) : Prop :=
  ∃ lane granted, Prepared before.next (before.lane small) lane ∧
    Promoted lane (after.lane small) granted ∧
    ∀ tenant id, Grants before after small tenant id ↔ granted = some (tenant, id)

theorem Served.quiet {after : BodyWaitQueue} {small : Bool}
    (prepared : Prepared queue.next (queue.lane small) (after.lane small))
    (nobody : ∀ id, (queue.waiter id).done = false → (after.waiter id).done = false ∨
      (after.waiter id).smallLane ≠ small) : Served queue after small := by
  refine ⟨_, none, prepared, .same rfl rfl, fun tenant id => ⟨?_, nofun⟩⟩
  rintro ⟨before, given⟩
  rcases nobody id before with idle | elsewhere
  · rw [given] at idle
    cases idle
  · rw [given] at elsewhere
    exact absurd rfl elsewhere

/-- A call that promotes a lane in the end. -/
theorem Served.promote {mid : BodyWaitQueue} {small : Bool} (sound : mid.Sound)
    (prepared : Prepared queue.next (queue.lane small) (mid.lane small))
    (done : ∀ id, (mid.waiter id).done = (queue.waiter id).done ∨
      ((mid.waiter id).done = true ∧ (mid.waiter id).smallLane ≠ small)) (promotes : Bool) :
    Served queue (mid.promote promotes) small := by
  by_cases same : small = promotes
  · subst same
    obtain ⟨granted, lanes, grants⟩ := promoted sound small
    refine ⟨_, granted, prepared, lanes, fun tenant id => ?_⟩
    rw [← grants]
    unfold Grants
    rcases done id with equal | ⟨already, elsewhere⟩
    · rw [equal]
    · refine ⟨fun given => ?_, fun given => by cases already.symm.trans given.1⟩
      rcases promoted_waiter sound small id with equal | ⟨idle, -⟩
      · rw [← equal, given.2] at elsewhere
        exact absurd rfl elsewhere
      · cases already.symm.trans idle
  · refine Served.quiet ((promoted_other sound same).symm ▸ prepared) fun id idle => ?_
    rcases promoted_waiter sound promotes id with equal | ⟨-, -, elsewhere⟩
    · rw [equal]
      rcases done id with same | ⟨-, elsewhere⟩
      · rw [same]
        exact Or.inl idle
      · exact Or.inr elsewhere
    · rw [elsewhere]
      exact Or.inr (Ne.symm same)

theorem Served.before_other {mid : BodyWaitQueue} {small other : Bool}
    (served : Served queue mid small) (sound : mid.Sound) (different : small ≠ other) :
    Served queue (mid.promote other) small := by
  obtain ⟨lane, granted, prepared, lanes, grants⟩ := served
  refine ⟨lane, granted, prepared, (promoted_other sound different).symm ▸ lanes, fun tenant id => ?_⟩
  rw [← grants]
  unfold Grants
  rcases promoted_waiter sound other id with equal | ⟨idle, -, elsewhere⟩
  · rw [equal]
  · constructor
    · rintro ⟨-, given⟩
      rw [given] at elsewhere
      exact absurd elsewhere different
    · rintro ⟨-, given⟩
      rw [given] at idle
      cases idle

end Lanes

namespace System

variable {system : System}

/-- **A tenant loses its last waiter without a turn**: a time-out or a cancellation of a queued waiter
that is the only one of its tenant in its lane. -/
def Loses (system : System) : Event → Prop
  | .timedOut id | .cancelled id =>
    system.caller id = .waiting ∧ (system.queue.waiter id).state = .queued ∧
      (system.queue.lane (system.queue.waiter id).smallLane).queues.lookup
        (system.queue.waiter id).tenantKey = some [id]
  | _ => False

theorem giveUp_served (sound : system.Sound) {id : Nat} (keeps : ¬ system.Loses (.cancelled id))
    (small : Bool) : Served system.queue (system.giveUp id).queue small := by
  unfold giveUp
  split
  · rename_i waiting
    cases state : (system.queue.waiter id).state with
    | abandoned => exact absurd state (sound.waiting id waiting)
    | granted =>
      have given : system.Outstanding (system.queue.waiter id).smallLane id := ⟨rfl, state, Or.inl waiting⟩
      show Served system.queue (system.queue.remove id) small
      rw [BodyWaitQueue.remove_granted state (sound.active given)]
      refine Served.promote ((sound.queue.abandon state).switch _ false _) ?_ (fun other => ?_) _
      · refine .same ?_ ?_
        · rw [BodyWaitQueue.setLane_lane]
          split
          · rename_i same
            rw [same]
            rfl
          · rfl
        · rw [BodyWaitQueue.setLane_lane]
          split
          · rename_i same
            rw [same]
            rfl
          · rfl
      · rw [BodyWaitQueue.setLane_waiter, BodyWaitQueue.setWaiter_waiter]
        refine Or.inl ?_
        split
        · rename_i same
          rw [same]
        · rfl
    | queued =>
      show Served system.queue (system.queue.remove id) small
      rw [BodyWaitQueue.remove_queued state]
      have gone := BodyWaitQueue.dequeue_spec sound.queue state
      obtain ⟨ids, found, inside, own⟩ := gone.lane
      refine Served.quiet ?_ fun other idle => Or.inl ?_
      · by_cases here : small = (system.queue.waiter id).smallLane
        · rw [here]
          refine .leave found inside (fun empty => keeps ⟨waiting, state, ?_⟩) ?_ ?_
          · rw [found, (List.erase_eq_nil_iff.mp empty).resolve_left (List.ne_nil_of_mem inside)]
          · rw [own]
          · rw [own]
            rfl
        · rw [gone.others small here]
          exact .same rfl rfl
      · rw [gone.waiter]
        split
        · rename_i same
          rw [same] at idle
          exact idle
        · exact idle
  · refine Served.quiet (.same rfl rfl) fun other idle => Or.inl idle

theorem prepared_switch (queue : BodyWaitQueue) (next : Nat) (small other activeTurn promotionEnabled : Bool) :
    Prepared next (queue.lane other)
      ((queue.setLane small { queue.lane small with activeTurn, promotionEnabled }).lane other) := by
  rw [BodyWaitQueue.setLane_lane]
  split
  · rename_i same
    rw [same]
    exact .same rfl rfl
  · exact .same rfl rfl

/-- **What a step does to a lane**, if no tenant loses its last waiter. -/
theorem step_served (sound : system.Sound) {event : Event} (keeps : ¬ system.Loses event)
    (small : Bool) : Served system.queue (system.step event).queue small := by
  have unchanged : ∀ after : BodyWaitQueue, after.lane = system.queue.lane →
      after.waiter = system.queue.waiter → Served system.queue after small := by
    intro after lanes waiters
    refine Served.quiet (lanes ▸ .same rfl rfl) fun id idle => Or.inl ?_
    rw [waiters]
    exact idle
  cases event with
  | waitTurn tenantKey lane timeoutPositive =>
    unfold step BodyWaitQueue.waitTurn
    cases timeoutPositive with
    | false => exact unchanged _ rfl rfl
    | true =>
      dsimp only
      rw [if_neg (by exact Bool.false_ne_true)]
      by_cases full : system.queue.limit.any fun limit => (limit : Int) ≤ system.queue.count
      · rw [if_pos full]
        exact unchanged _ rfl rfl
      · rw [if_neg full]
        refine Served.promote (BodyWaitQueue.enqueue_sound sound.queue _ lane) ?_ (fun id => ?_) lane
        · show Prepared _ _ ((BodyWaitQueue.setLane _ _ _).lane small)
          rw [BodyWaitQueue.setLane_lane]
          split
          · rename_i same
            rw [same]
            exact .push _ rfl rfl
          · exact .same rfl rfl
        · refine Or.inl ?_
          show ((BodyWaitQueue.setWaiter _ _ _).waiter id).done = _
          rw [BodyWaitQueue.setWaiter_waiter]
          split
          · rename_i same
            rw [same, sound.queue.later _ (Nat.le_refl _)]
          · rfl
  | returned id =>
    unfold step
    dsimp only
    split
    · exact unchanged _ rfl rfl
    · exact unchanged _ rfl rfl
  | timedOut id =>
    unfold step
    dsimp only
    split
    · exact giveUp_served (sound.counters (system.queue.timeouts + 1) system.queue.queueFull) keeps small
    · exact unchanged _ rfl rfl
  | cancelled id => exact giveUp_served sound keeps small
  | finishTurn id =>
    show Served system.queue (system.finish id).queue small
    unfold finish
    split
    · rename_i running
      have given : system.Outstanding (system.queue.waiter id).smallLane id :=
        ⟨rfl, sound.running id running, Or.inr running⟩
      rw [BodyWaitQueue.finishTurn_eq _ (sound.active given), Option.getD_some]
      exact Served.promote (sound.queue.switch _ false _) (prepared_switch _ _ _ _ _ _)
        (fun _ => Or.inl rfl) _
    · exact unchanged _ rfl rfl
  | blockUntilRelease lane =>
    exact Served.quiet (prepared_switch _ _ lane small (system.queue.lane lane).activeTurn false)
      fun _ idle => Or.inl idle
  | notifyMemoryReleased =>
    have first := sound.queue.switch true (system.queue.lane true).activeTurn true
    have firstDone := BodyWaitQueue.promote_sound first true
    have second := firstDone.switch false ((system.queue.notifyLane true).lane false).activeTurn true
    cases small with
    | true =>
      obtain ⟨lane, granted, prepared, lanes, grants⟩ : Served system.queue _ true :=
        Served.promote first (prepared_switch _ _ _ _ _ _) (fun _ => Or.inl rfl) true
      have switched : Served system.queue
          ((system.queue.notifyLane true).setLane false
            { (system.queue.notifyLane true).lane false with promotionEnabled := true }) true :=
        ⟨lane, granted, prepared, lanes, grants⟩
      exact switched.before_other second Bool.false_ne_true.symm
    | false =>
      have other := promoted_other first Bool.false_ne_true
      refine Served.promote second (.same ?_ ?_) (fun id => ?_) false
      · show (((system.queue.setLane true _).promote true).lane false).queues = _
        rw [other]
        rfl
      · show (((system.queue.setLane true _).promote true).lane false).tenantRoundRobin = _
        rw [other]
        rfl
      · rcases promoted_waiter first true id with equal | ⟨-, done, elsewhere⟩
        · exact Or.inl (congrArg BodyMemoryWaiter.done equal)
        · refine Or.inr ⟨done, fun same => ?_⟩
          cases elsewhere.symm.trans same

end System

/-! ### Exact rings -/

/-- A ring has tenants with a queue only, each once. -/
def ExactLane (lane : Lane) : Prop :=
  lane.tenantRoundRobin.Nodup ∧
    ∀ tenant ∈ lane.tenantRoundRobin, ∃ ids, lane.queues.lookup tenant = some ids

variable {lane after : Lane} {id : Nat} {small : Bool} {tenant : String} {tenant other : String}
  {granted : Option (String × Nat)} {event : Event}

theorem Prepared.exact {next : Nat} (prepared : Prepared next lane after)
    (exact : ExactLane lane) : ExactLane after := by
  obtain ⟨once, queued⟩ := exact
  cases prepared with
  | same queues ring =>
    unfold ExactLane
    rw [queues, ring]
    exact ⟨once, queued⟩
  | push tenant queues ring =>
    unfold ExactLane
    rw [queues, ring]
    refine ⟨?_, fun other inside => ?_⟩
    · unfold Lane.push
      cases found : lane.queues.lookup tenant with
      | some ids => exact once
      | none =>
        refine List.nodup_append.mpr ⟨once, List.nodup_singleton _, fun first here second there => ?_⟩
        rw [List.mem_singleton.mp there]
        rintro rfl
        obtain ⟨ids, known⟩ := queued first here
        cases known.symm.trans found
    · rw [Lane.lookup_push]
      split
      · exact ⟨_, rfl⟩
      · rename_i different
        rcases (Lane.mem_ring_push lane tenant other next).mp inside with old | ⟨same, -⟩
        · exact queued other old
        · exact absurd same different
  | leave found inside keeps queues ring =>
    unfold ExactLane
    rw [queues, ring]
    refine ⟨once, fun other member => ?_⟩
    rw [Lane.lookup_leave found, if_neg keeps]
    split
    · exact ⟨_, rfl⟩
    · exact queued other member

theorem ExactLane.head {lane : Lane} (exact : ExactLane lane) {stale ring : List String}
    (split : lane.tenantRoundRobin = stale ++ tenant :: ring)
    (without : ∀ other ∈ stale, lane.queues.lookup other = none) :
    lane.tenantRoundRobin = tenant :: ring := by
  cases stale with
  | nil => exact split
  | cons first rest =>
    obtain ⟨ids, found⟩ := exact.2 first (by rw [split]; exact List.mem_cons_self)
    cases found.symm.trans (without first List.mem_cons_self)

theorem Promoted.exact
    (promoted : Promoted lane after granted) (exact : ExactLane lane) : ExactLane after := by
  cases promoted with
  | same queues ring =>
    unfold ExactLane
    rw [queues, ring]
    exact exact
  | emptied without queues ring =>
    unfold ExactLane
    rw [ring]
    exact ⟨List.nodup_nil, nofun⟩
  | turn split without found queues rotated =>
    have head := exact.head split without
    obtain ⟨once, queued⟩ := exact
    rw [head] at once queued
    obtain ⟨fresh, once⟩ := List.nodup_cons.mp once
    unfold ExactLane
    rw [queues, rotated]
    split
    · rename_i last
      refine ⟨once, fun other inside => ?_⟩
      rw [Lane.lookup_leave found, if_neg]
      · exact queued other (List.mem_cons_of_mem _ inside)
      · rintro rfl
        exact fresh inside
    · rename_i more
      refine ⟨?_, fun other inside => ?_⟩
      · refine List.nodup_append.mpr ⟨once, List.nodup_singleton _, fun first here second there => ?_⟩
        rw [List.mem_singleton.mp there]
        rintro rfl
        exact fresh here
      · rw [Lane.lookup_leave found, if_neg more]
        split
        · exact ⟨_, rfl⟩
        · rename_i different
          rcases List.mem_append.mp inside with old | new
          · exact queued other (List.mem_cons_of_mem _ old)
          · exact absurd (List.mem_singleton.mp new) different

/-! ### Waiting in the ring -/

/-- A tenant stands in the ring, and before it another one does not. -/
def Ahead (tenant other : String) (lane : Lane) : Prop :=
  ∃ before after, lane.tenantRoundRobin = before ++ tenant :: after ∧ other ∉ before

theorem Prepared.ahead {next : Nat} (prepared : Prepared next lane after)
    (ahead : Ahead tenant other lane) : Ahead tenant other after := by
  obtain ⟨before, rest, split, absent⟩ := ahead
  cases prepared with
  | same queues ring => exact ⟨before, rest, ring.trans split, absent⟩
  | leave found inside keeps queues ring => exact ⟨before, rest, ring.trans split, absent⟩
  | push name queues ring =>
    unfold Lane.push at ring
    cases found : lane.queues.lookup name with
    | some ids =>
      rw [found] at ring
      exact ⟨before, rest, ring.trans split, absent⟩
    | none =>
      rw [found] at ring
      refine ⟨before, rest ++ [name], ring.trans ?_, absent⟩
      show lane.tenantRoundRobin ++ [name] = _
      rw [split, List.append_assoc, List.cons_append]

/-- A tenant that has been given the turn stands behind every other one. -/
theorem Promoted.starts
    (promoted : Promoted lane after (some (tenant, id))) (exact : ExactLane lane)
    (different : other ≠ tenant) (inside : other ∈ after.tenantRoundRobin) : Ahead other tenant after := by
  cases promoted with
  | turn split without found queues rotated =>
    rename_i stale ring rest
    have head := exact.head split without
    have once := exact.1
    rw [head] at once
    obtain ⟨fresh, -⟩ := List.nodup_cons.mp once
    have member : other ∈ ring := by
      rw [rotated] at inside
      split at inside
      · exact inside
      · rcases List.mem_append.mp inside with old | new
        · exact old
        · exact absurd (List.mem_singleton.mp new) different
    obtain ⟨before, after', place⟩ := List.append_of_mem member
    have absent : tenant ∉ before := fun here => fresh (by rw [place]; exact List.mem_append_left _ here)
    unfold Ahead
    rw [rotated]
    split
    · exact ⟨before, after', place, absent⟩
    · exact ⟨before, after' ++ [tenant], by rw [place, List.append_assoc, List.cons_append], absent⟩

/-- **Until its turn a tenant stays ahead of the other**, which is not given the turn. -/
theorem Promoted.ahead (promoted : Promoted lane after granted) (exact : ExactLane lane)
    (queued : ∃ ids, lane.queues.lookup tenant = some ids) (ahead : Ahead tenant other lane) :
    (∃ id, granted = some (tenant, id)) ∨
      (Ahead tenant other after ∧ ∀ id, granted = some (other, id) → other = tenant) := by
  obtain ⟨before, rest, place, absent⟩ := ahead
  cases promoted with
  | same queues ring => exact Or.inr ⟨⟨before, rest, ring.trans place, absent⟩, nofun⟩
  | emptied without queues ring =>
    obtain ⟨ids, found⟩ := queued
    cases found.symm.trans (without tenant)
  | turn split without found queues rotated =>
    rename_i stale name ring id ids
    have head := exact.head split without
    rw [place] at head
    cases before with
    | nil =>
      rw [List.nil_append] at head
      cases head
      exact Or.inl ⟨id, rfl⟩
    | cons first before =>
      rw [List.cons_append] at head
      cases head
      have behind : other ∉ before := fun inside => absent (List.mem_cons_of_mem _ inside)
      refine Or.inr ⟨?_, ?_⟩
      · unfold Ahead
        rw [rotated]
        split
        · exact ⟨before, rest, rfl, behind⟩
        · exact ⟨before, rest ++ [name], by rw [List.append_assoc, List.cons_append], behind⟩
      · intro key equal
        cases equal
        exact absurd List.mem_cons_self absent

theorem Prepared.queued {next : Nat} (prepared : Prepared next lane after)
    (queued : ∃ ids, lane.queues.lookup tenant = some ids) :
    ∃ ids, after.queues.lookup tenant = some ids := by
  cases prepared with
  | same queues ring =>
    rw [queues]
    exact queued
  | push name queues ring =>
    rw [queues, Lane.lookup_push]
    split
    · exact ⟨_, rfl⟩
    · exact queued
  | leave found inside keeps queues ring =>
    rw [queues, Lane.lookup_leave found, if_neg keeps]
    split
    · exact ⟨_, rfl⟩
    · exact queued

/-! ### Order of arrival -/

/-- The waiters of a tenant arrived after a given one. -/
def OnlyAfter (tenant : String) (id : Nat) (lane : Lane) : Prop :=
  ∀ ids, lane.queues.lookup tenant = some ids → ∀ other ∈ ids, id < other

theorem Prepared.onlyAfter {next : Nat} (prepared : Prepared next lane after)
    (arrived : id < next) (later : OnlyAfter tenant id lane) :
    OnlyAfter tenant id after := by
  intro ids here other inside
  cases prepared with
  | same queues ring => exact later ids (queues ▸ here) other inside
  | push name queues ring =>
    rw [queues, Lane.lookup_push] at here
    split at here
    · rename_i same
      cases here
      rcases List.mem_append.mp inside with old | new
      · cases found : lane.queues.lookup name with
        | none =>
          rw [found] at old
          exact absurd old List.not_mem_nil
        | some before =>
          rw [found] at old
          exact later before (same ▸ found) other old
      · rw [List.mem_singleton.mp new]
        exact arrived
    · exact later ids here other inside
  | leave found member keeps queues ring =>
    rw [queues, Lane.lookup_leave found, if_neg keeps] at here
    split at here
    · rename_i same
      cases here
      exact later _ (same ▸ found) other (List.mem_of_mem_erase inside)
    · exact later ids here other inside

/-- The queues stay in order of arrival. -/
theorem Prepared.sorted {next : Nat} (prepared : Prepared next lane after)
    (sorted : ∀ tenant ids, lane.queues.lookup tenant = some ids → ids.Pairwise (· < ·))
    (arrived : ∀ tenant ids, lane.queues.lookup tenant = some ids → ∀ id ∈ ids, id < next) :
    ∀ tenant ids, after.queues.lookup tenant = some ids → ids.Pairwise (· < ·) := by
  intro tenant ids here
  cases prepared with
  | same queues ring => exact sorted tenant ids (queues ▸ here)
  | push name queues ring =>
    rw [queues, Lane.lookup_push] at here
    split at here
    · cases here
      cases found : lane.queues.lookup name with
      | none => exact List.pairwise_singleton _ _
      | some before =>
        refine List.pairwise_append.mpr
          ⟨sorted name before found, List.pairwise_singleton _ _, fun first old second new => ?_⟩
        rw [List.mem_singleton.mp new]
        exact arrived name before found first old
    · exact sorted tenant ids here
  | leave found member keeps queues ring =>
    rw [queues, Lane.lookup_leave found, if_neg keeps] at here
    split at here
    · cases here
      exact (sorted _ _ found).sublist List.erase_sublist
    · exact sorted tenant ids here

theorem Promoted.onlyAfter (promoted : Promoted lane after granted)
    (later : OnlyAfter tenant id lane) :
    OnlyAfter tenant id after ∧ ∀ other, granted = some (tenant, other) → id < other := by
  cases promoted with
  | same queues ring => exact ⟨fun ids here => later ids (queues ▸ here), nofun⟩
  | emptied without queues ring => exact ⟨fun ids here => later ids (queues ▸ here), nofun⟩
  | turn split without found queues rotated =>
    refine ⟨fun ids here other inside => ?_, fun other equal => ?_⟩
    · rw [queues, Lane.lookup_leave found] at here
      split at here
      · rename_i same
        split at here
        · cases here
        · cases here
          exact later _ (same ▸ found) other (List.mem_cons_of_mem _ inside)
      · exact later ids here other inside
    · cases equal
      exact later _ found _ List.mem_cons_self

/-- What is left of a tenant's queue arrived after the waiter that was given the turn. -/
theorem Promoted.first (promoted : Promoted lane after (some (tenant, id)))
    (sorted : ∀ tenant ids, lane.queues.lookup tenant = some ids → ids.Pairwise (· < ·)) :
    OnlyAfter tenant id after := by
  cases promoted with
  | turn split without found queues rotated =>
    intro ids here other inside
    rw [queues, Lane.lookup_leave found, if_pos rfl] at here
    split at here
    · cases here
    · cases here
      exact (List.pairwise_cons.mp (sorted _ _ found)).1 other inside

/-! ### Runs -/

namespace System

variable {system : System}

/-- A waiter of a tenant is queued in a lane. -/
def Queued (system : System) (small : Bool) (tenant : String) (id : Nat) : Prop :=
  system.caller id = .waiting ∧ system.queue.waiter id = ⟨false, tenant, small, .queued⟩

theorem Sound.queued_iff (sound : system.Sound) :
    system.Queued small tenant id ↔
      ∃ ids, (system.queue.lane small).queues.lookup tenant = some ids ∧ id ∈ ids := by
  constructor
  · rintro ⟨-, known⟩
    have here := sound.queue.complete id (by rw [known])
    rw [known] at here
    exact here
  · rintro ⟨ids, found, inside⟩
    have known := (sound.queue.lane small).member tenant ids found id inside
    exact ⟨sound.waits id (by rw [known]), known⟩

/-- **An exact ring**: the tenants with queued waiters, each once. -/
def RingExact (system : System) : Prop :=
  ∀ small, (system.queue.lane small).tenantRoundRobin.Nodup ∧
    ∀ tenant, tenant ∈ (system.queue.lane small).tenantRoundRobin ↔
      ∃ id, system.Queued small tenant id

theorem Sound.ringExact_iff (sound : system.Sound) :
    system.RingExact ↔ ∀ small, ExactLane (system.queue.lane small) := by
  refine forall_congr' fun small => and_congr_right fun _ => ?_
  constructor
  · intro exact tenant inside
    obtain ⟨id, queued⟩ := (exact tenant).mp inside
    obtain ⟨ids, found, -⟩ := sound.queued_iff.mp queued
    exact ⟨ids, found⟩
  · intro exact tenant
    constructor
    · intro inside
      obtain ⟨ids, found⟩ := exact tenant inside
      obtain ⟨id, member⟩ :=
        List.exists_mem_of_ne_nil ids ((sound.queue.lane small).nonempty tenant ids found)
      exact ⟨id, sound.queued_iff.mpr ⟨ids, found, member⟩⟩
    · rintro ⟨id, queued⟩
      obtain ⟨ids, found, -⟩ := sound.queued_iff.mp queued
      exact (sound.queue.lane small).ringed tenant ids found

/-- **One step keeps a ring exact**, unless a tenant loses its last waiter. -/
theorem step_exact (sound : system.Sound) (keeps : ¬ system.Loses event)
    (exact : ∀ small, ExactLane (system.queue.lane small)) (small : Bool) :
    ExactLane ((system.step event).queue.lane small) := by
  obtain ⟨lane, granted, prepared, promoted, -⟩ := step_served sound keeps small
  exact promoted.exact (prepared.exact (exact small))

/-- A queued waiter that is the only one of its tenant leaves the tenant in the ring. -/
theorem giveUp_loses (sound : system.Sound) (loses : system.Loses (.cancelled id)) :
    ¬ (system.giveUp id).RingExact := by
  obtain ⟨waiting, queued, alone⟩ := loses
  have after := giveUp_sound sound id
  rw [after.ringExact_iff]
  intro exact
  have gone := BodyWaitQueue.dequeue_spec sound.queue queued
  obtain ⟨ids, found, -, own⟩ := gone.lane
  cases found.symm.trans alone
  have lane : (system.giveUp id).queue.lane (system.queue.waiter id).smallLane =
      (system.queue.lane (system.queue.waiter id).smallLane).leave (system.queue.waiter id).tenantKey [] := by
    unfold giveUp
    rw [if_pos waiting, BodyWaitQueue.remove_queued queued]
    show (system.queue.dequeue id).lane _ = _
    rw [own, List.erase_cons_head]
  obtain ⟨ids, there⟩ := (exact (system.queue.waiter id).smallLane).2 (system.queue.waiter id).tenantKey (by
    rw [lane]
    exact (sound.queue.lane _).ringed _ _ alone)
  rw [lane, Lane.lookup_leave alone, if_pos rfl, if_pos rfl] at there
  cases there

theorem step_loses (sound : system.Sound) (loses : system.Loses event) :
    ¬ (system.step event).RingExact := by
  cases event with
  | cancelled id => exact giveUp_loses sound loses
  | timedOut id =>
    unfold step
    dsimp only
    rw [if_pos loses.1]
    exact giveUp_loses (sound.counters (system.queue.timeouts + 1) system.queue.queueFull) loses
  | _ => exact absurd loses id

/-- No tenant loses its last waiter along the steps. -/
def Keeps (system : System) (events : List Event) : Prop :=
  ∀ before event after, events = before ++ event :: after → ¬ (before.foldl step system).Loses event

theorem Keeps.head {rest : List Event} (keeps : system.Keeps (event :: rest)) :
    ¬ system.Loses event := keeps [] event rest rfl

theorem Keeps.tail {rest : List Event} (keeps : system.Keeps (event :: rest)) :
    (system.step event).Keeps rest := fun before other after split =>
  keeps (event :: before) other after (by rw [split, List.cons_append])

theorem Keeps.of_append {first second : List Event} (keeps : system.Keeps (first ++ second)) :
    system.Keeps first ∧ (first.foldl step system).Keeps second := by
  refine ⟨fun before event after split => keeps before event (after ++ second) ?_,
    fun before event after split => ?_⟩
  · rw [split, List.append_assoc, List.cons_append]
  · rw [← List.foldl_append]
    exact keeps (first ++ before) event after (by rw [split, List.append_assoc])

/-- **Steps keep the rings exact.** -/
theorem steps_exact (sound : system.Sound) {events : List Event} (keeps : system.Keeps events)
    (exact : ∀ small, ExactLane (system.queue.lane small)) :
    ∀ small, ExactLane ((events.foldl step system).queue.lane small) := by
  induction events generalizing system with
  | nil => exact exact
  | cons event rest ih =>
    exact ih (step_sound sound event) keeps.tail (step_exact sound keeps.head exact)

/-- **A tenant that waits is served before one that was served before it is served again.** -/
theorem served_between (sound : system.Sound) {between : List Event} {last : Event}
    (keeps : system.Keeps (between ++ [last])) (exact : ∀ small, ExactLane (system.queue.lane small))
    (different : other ≠ tenant)
    (ahead : Ahead other tenant (system.queue.lane small))
    (waits : ∀ first rest, between = first ++ rest →
      ∃ waiter, (first.foldl step system).Queued small other waiter)
    (gives : (between.foldl step system).Gives last small tenant id) :
    ∃ first event rest waiter, between = first ++ event :: rest ∧
      (first.foldl step system).Gives event small other waiter := by
  induction between generalizing system with
  | nil =>
    obtain ⟨lane, granted, prepared, promoted, grants⟩ := step_served sound keeps.head small
    obtain ⟨waiter, queued⟩ := waits [] [] rfl
    obtain ⟨ids, found, -⟩ := sound.queued_iff.mp queued
    have given := (grants tenant id).mp gives
    rcases promoted.ahead (prepared.exact (exact small)) (prepared.queued ⟨ids, found⟩)
      (prepared.ahead ahead) with ⟨key, mine⟩ | ⟨-, never⟩
    · cases given.symm.trans mine
      exact absurd rfl different
    · exact absurd (never id given).symm different
  | cons event rest ih =>
    obtain ⟨lane, granted, prepared, promoted, grants⟩ := step_served sound keeps.head small
    obtain ⟨waiter, queued⟩ := waits [] (event :: rest) rfl
    obtain ⟨ids, found, -⟩ := sound.queued_iff.mp queued
    rcases promoted.ahead (prepared.exact (exact small)) (prepared.queued ⟨ids, found⟩)
      (prepared.ahead ahead) with ⟨key, mine⟩ | ⟨ahead, -⟩
    · exact ⟨[], event, rest, key, rfl, (grants other key).mpr mine⟩
    · obtain ⟨first, served, tail, key, split, given⟩ := ih (step_sound sound event) keeps.tail
        (step_exact sound keeps.head exact) ahead
        (fun first tail split => waits (event :: first) tail (by rw [split, List.cons_append])) gives
      exact ⟨event :: first, served, tail, key, by rw [split, List.cons_append], given⟩

theorem giveUp_next (sound : system.Sound) (id : Nat) :
    system.queue.next ≤ (system.giveUp id).queue.next := by
  unfold giveUp
  split
  · rename_i waiting
    show _ ≤ (system.queue.remove id).next
    cases state : (system.queue.waiter id).state with
    | abandoned => exact absurd state (sound.waiting id waiting)
    | granted =>
      have given : system.Outstanding (system.queue.waiter id).smallLane id := ⟨rfl, state, Or.inl waiting⟩
      rw [BodyWaitQueue.remove_granted state (sound.active given)]
      exact Nat.le_of_eq
        (BodyWaitQueue.promote_next ((sound.queue.abandon state).switch _ false _) _).symm
    | queued =>
      rw [BodyWaitQueue.remove_queued state, (BodyWaitQueue.dequeue_spec sound.queue state).next]
  · exact Nat.le_refl _

theorem step_next (sound : system.Sound) (event : Event) :
    system.queue.next ≤ (system.step event).queue.next := by
  cases event with
  | waitTurn tenantKey lane timeoutPositive =>
    unfold step BodyWaitQueue.waitTurn
    cases timeoutPositive with
    | false => exact Nat.le_refl _
    | true =>
      dsimp only
      rw [if_neg (by exact Bool.false_ne_true)]
      by_cases full : system.queue.limit.any fun limit => (limit : Int) ≤ system.queue.count
      · rw [if_pos full]
      · rw [if_neg full]
        have same := BodyWaitQueue.promote_next
          (BodyWaitQueue.enqueue_sound sound.queue (BodyWaitQueue.normalizedTenant tenantKey) lane) lane
        exact Nat.le_of_lt (Nat.lt_of_lt_of_eq (Nat.lt_succ_self _) same.symm)
  | returned id =>
    unfold step
    dsimp only
    split <;> exact Nat.le_refl _
  | timedOut id =>
    unfold step
    dsimp only
    split
    · exact giveUp_next (sound.counters (system.queue.timeouts + 1) system.queue.queueFull) id
    · exact Nat.le_refl _
  | cancelled id => exact giveUp_next sound id
  | finishTurn id =>
    show _ ≤ (system.finish id).queue.next
    unfold finish
    split
    · rename_i running
      have given : system.Outstanding (system.queue.waiter id).smallLane id :=
        ⟨rfl, sound.running id running, Or.inr running⟩
      rw [BodyWaitQueue.finishTurn_eq _ (sound.active given), Option.getD_some]
      exact Nat.le_of_eq (BodyWaitQueue.promote_next (sound.queue.switch _ false _) _).symm
    · exact Nat.le_refl _
  | blockUntilRelease lane => exact Nat.le_refl _
  | notifyMemoryReleased =>
    have first := sound.queue.switch true (system.queue.lane true).activeTurn true
    have second := (BodyWaitQueue.promote_sound first true).switch false
      ((system.queue.notifyLane true).lane false).activeTurn true
    exact Nat.le_of_eq ((BodyWaitQueue.promote_next second false).trans
      (BodyWaitQueue.promote_next first true)).symm

/-- **A tenant's waiters are served in order of arrival.** -/
theorem served_in_order (sound : system.Sound) {between : List Event} {last : Event}
    (keeps : system.Keeps (between ++ [last])) {id other : Nat}
    (arrived : id < system.queue.next) (later : OnlyAfter tenant id (system.queue.lane small))
    (gives : (between.foldl step system).Gives last small tenant other) : id < other := by
  induction between generalizing system with
  | nil =>
    obtain ⟨lane, granted, prepared, promoted, grants⟩ := step_served sound keeps.head small
    exact (promoted.onlyAfter (prepared.onlyAfter arrived later)).2 other ((grants tenant other).mp gives)
  | cons event rest ih =>
    obtain ⟨lane, granted, prepared, promoted, -⟩ := step_served sound keeps.head small
    exact ih (step_sound sound event) keeps.tail (Nat.lt_of_lt_of_le arrived (step_next sound event))
      (promoted.onlyAfter (prepared.onlyAfter arrived later)).1 gives

/-- **What the tenants of the queue are promised**, in a run of these steps. -/
structure Fair (limit : Option Nat) (events : List Event) : Prop where
  /-- Every ring is exact, the count is right and at most one waiter of a lane has a turn. -/
  state : ∀ before after, events = before ++ after →
    (run limit before).RingExact ∧
    (run limit before).queue.count = (run limit before).queue.queued ∧
    ∀ small id other, (run limit before).Outstanding small id →
      (run limit before).Outstanding small other → id = other
  /-- Between two turns of a tenant, every other one that waits throughout has a turn. -/
  turns : ∀ before first between last after small tenant other id key,
    events = before ++ first :: (between ++ last :: after) →
    (run limit before).Gives first small tenant id →
    (run limit (before ++ first :: between)).Gives last small tenant key →
    other ≠ tenant →
    (∀ some rest, between = some ++ rest →
      ∃ waiter, (run limit (before ++ first :: some)).Queued small other waiter) →
    ∃ some event rest waiter, between = some ++ event :: rest ∧
      (run limit (before ++ first :: some)).Gives event small other waiter
  /-- A tenant's waiters have their turns in the order of their arrival. -/
  order : ∀ before first between last after small tenant id key,
    events = before ++ first :: (between ++ last :: after) →
    (run limit before).Gives first small tenant id →
    (run limit (before ++ first :: between)).Gives last small tenant key → id < key

theorem run_append (limit : Option Nat) (before after : List Event) :
    run limit (before ++ after) = after.foldl step (run limit before) := List.foldl_append

theorem Sound.single (sound : system.Sound) {id other : Nat}
    (first : system.Outstanding small id) (second : system.Outstanding small other) : id = other := by
  rcases sound.turn small with ⟨-, nobody⟩ | ⟨-, holder, only⟩
  · exact absurd first (nobody id)
  · exact ((only id).mp first).trans ((only other).mp second).symm

/-- **The queue is fair exactly while no tenant loses its last waiter without a turn.** -/
theorem fair_iff (limit : Option Nat) (events : List Event) :
    Fair limit events ↔ (fresh limit).Keeps events := by
  constructor
  · intro fair before event after split loses
    have sound := run_sound limit before
    have next := (fair.state (before ++ [event]) after (by rw [split, List.append_assoc]; rfl)).1
    rw [run_append] at next
    exact step_loses sound loses next
  · intro keeps
    have start : ∀ small, ExactLane ((fresh limit).queue.lane small) :=
      fun small => ⟨List.nodup_nil, nofun⟩
    refine ⟨fun before after split => ?_, ?_, ?_⟩
    · have sound := run_sound limit before
      have exact := steps_exact (fresh_sound limit) (split ▸ keeps).of_append.1 start
      exact ⟨sound.ringExact_iff.mpr exact, sound.queue.number,
        fun small id other first second => sound.single first second⟩
    · intro before first between last after small tenant other id key split given again different waits
      have sound := run_sound limit before
      obtain ⟨old, new⟩ := (split ▸ keeps).of_append
      have exact := steps_exact (fresh_sound limit) old start
      have new : (run limit before).Keeps (first :: (between ++ last :: after)) := new
      obtain ⟨lane, granted, prepared, promoted, grants⟩ := step_served sound new.head small
      have served := (grants tenant id).mp given
      rw [served] at promoted
      have rest : ((run limit before).step first).Keeps (between ++ [last]) := by
        have all := new.tail
        rw [← List.singleton_append, ← List.append_assoc] at all
        exact all.of_append.1
      have unfolded : ∀ some, run limit (before ++ first :: some) =
          some.foldl step ((run limit before).step first) := fun some => run_append limit before _
      simp only [unfolded] at again waits ⊢
      obtain ⟨waiter, queued⟩ := waits [] between rfl
      obtain ⟨ids, found, -⟩ := (step_sound sound first).queued_iff.mp queued
      have inside := ((step_sound sound first).queue.lane small).ringed other ids found
      exact served_between (step_sound sound first) rest (step_exact sound new.head exact) different
        (promoted.starts (prepared.exact (exact small)) different inside) waits again
    · intro before first between last after small tenant id key split given again
      have sound := run_sound limit before
      obtain ⟨old, new⟩ := (split ▸ keeps).of_append
      have new : (run limit before).Keeps (first :: (between ++ last :: after)) := new
      obtain ⟨lane, granted, prepared, promoted, grants⟩ := step_served sound new.head small
      have served := (grants tenant id).mp given
      rw [served] at promoted
      have rest : ((run limit before).step first).Keeps (between ++ [last]) := by
        have all := new.tail
        rw [← List.singleton_append, ← List.append_assoc] at all
        exact all.of_append.1
      rw [run_append] at again
      have arrived : id < ((run limit before).step first).queue.next := by
        by_contra late
        have known := (step_sound sound first).queue.later id (Nat.le_of_not_lt late)
        cases known.symm.trans given.2
      exact served_in_order (step_sound sound first) rest arrived
        (promoted.first (prepared.sorted (sound.queue.lane small).sorted
          fun name ids found waiter inside => sound.queue.arrived found inside)) again

/-- A waiter of `a` times out in the queue and `a` comes back: it has two places in the ring. -/
def crowdedRing : List Event :=
  [.waitTurn "a" true true, .waitTurn "a" true true, .timedOut 1, .waitTurn "a" true true,
    .waitTurn "a" true true, .waitTurn "b" true true, .returned 0, .finishTurn 0, .returned 2]

/-- **Two turns of `a` while `b` waits**, after a time-out. -/
theorem crowded_ring_unfair :
    ¬ Fair none (crowdedRing ++ [.finishTurn 2]) ∧
      (run none (crowdedRing.take 7)).Gives (.finishTurn 0) true "a" 2 ∧
      (run none (crowdedRing.take 8)).Queued true "b" 4 ∧
      (run none crowdedRing).Queued true "b" 4 ∧
      (run none crowdedRing).Gives (.finishTurn 2) true "a" 3 := by
  refine ⟨fun fair => ?_, ?_, ?_, ?_, ?_⟩
  · have exact := (fair.state (crowdedRing.take 3) (crowdedRing.drop 3 ++ [.finishTurn 2]) rfl).1
    have loses : (run none (crowdedRing.take 2)).Loses (.timedOut 1) :=
      ⟨by decide, by decide, by decide⟩
    exact step_loses (run_sound none (crowdedRing.take 2)) loses exact
  · exact ⟨by decide, by decide⟩
  · exact ⟨by decide, by decide⟩
  · exact ⟨by decide, by decide⟩
  · exact ⟨by decide, by decide⟩

end System

end TenantTurns

end UniApi.Admission
