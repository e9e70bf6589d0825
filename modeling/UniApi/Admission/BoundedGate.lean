/-
**`BoundedAdmissionGate`: a FIFO gate with a bounded queue.**

The critical sections of the gate's lock contain no suspension, so each is one step. An acquisition that
has to wait is carried by three tasks: the caller in `begin_acquire`, the task that waits for the grant,
and the caller that awaits that task or takes its result back; every one of them may be cancelled where
it is suspended. A step is what one task does between two suspensions.

* `Acquisition.Ok`: where the tasks of one acquisition can be, and who gives its slot back;
* `Sound`: slots, queue and order; `step_sound`, `run_sound`;
* `gate_safe`: bounds, the account of the slots, the order of grants, and what is left at the end.
-/

import UniApi.Admission.BodyWaitQueue
import UniApi.Admission.MemoryGovernor

namespace UniApi.Admission.BoundedGate

open UniApi.Lib UniApi.Admission

/-! ### One acquisition -/

/-- How a waiting task ends that has no lease. -/
inductive Failure where
  /-- `AdmissionRejected("wait_timeout")`. -/
  | rejected
  /-- `CancelledError`. -/
  | cancelled
  deriving DecidableEq

/-- The task that `begin_acquire` creates. -/
inductive Child where
  | created
  /-- In `wait_for`. -/
  | waiting
  /-- It awaits its `_abandon_waiter` task, which ran or did not. -/
  | cleaning (failure : Failure) (ran : Bool)
  | lease
  | failed (failure : Failure)
  deriving DecidableEq

/-- The caller in `begin_acquire`. -/
inductive Begin where
  /-- It awaits `started`. -/
  | starting
  /-- It was cancelled, has cancelled the task, and awaits it. -/
  | draining
  /-- It awaits its `_abandon_waiter` task, which ran or did not. -/
  | cleaning (ran : Bool)
  | raised
  | returned
  deriving DecidableEq

/-- The caller that was given the acquisition. -/
inductive Owner where
  | none
  /-- It has the future. -/
  | future
  /-- In `_await_owned_acquisition`. -/
  | awaiting
  /-- In `_cancel_and_release_acquisition`. -/
  | reclaiming
  /-- There, in `release` of the lease it got. -/
  | dropping
  /-- It has the lease. -/
  | holding
  /-- It ended without a lease. -/
  | gone
  deriving DecidableEq

/-- `AdmissionLease`: its release task. -/
inductive Release where
  | kept
  | releasing
  | released
  deriving DecidableEq

/-- An acquisition: `_Waiter`, the tasks around it and its lease. -/
structure Acquisition where
  waiter : WaiterState
  /-- The waiter's future is done. -/
  done : Bool
  child : Child
  begin : Begin
  owner : Owner
  release : Release
  deriving DecidableEq

namespace Acquisition

/-- No acquisition yet. -/
def fresh : Acquisition := ⟨.abandoned, true, .failed .cancelled, .raised, .none, .kept⟩

/-- An acquisition that joins the queue. -/
def queued : Acquisition := ⟨.queued, false, .created, .starting, .none, .kept⟩

/-- An acquisition that has its slot at once. -/
def resolved (owner : Owner) : Acquisition := ⟨.granted, true, .lease, .returned, owner, .kept⟩

/-- It has a slot of the gate. -/
def Slot (acquisition : Acquisition) : Prop :=
  acquisition.waiter = .granted ∧ acquisition.release ≠ .released

instance (acquisition : Acquisition) : Decidable acquisition.Slot :=
  inferInstanceAs (Decidable (_ ∧ _))

/-- Its caller has a lease that is not released. -/
def Held (acquisition : Acquisition) : Prop :=
  acquisition.owner = .holding ∧ acquisition.release ≠ .released

instance (acquisition : Acquisition) : Decidable acquisition.Held :=
  inferInstanceAs (Decidable (_ ∧ _))

/-- Its slot was granted, and neither reached the caller nor was given back. -/
def Undelivered (acquisition : Acquisition) : Prop :=
  acquisition.Slot ∧ acquisition.owner ≠ .holding

instance (acquisition : Acquisition) : Decidable acquisition.Undelivered :=
  inferInstanceAs (Decidable (_ ∧ _))

/-- Its caller is done with it: it ended without a lease, or has released it. -/
def Finished (acquisition : Acquisition) : Prop :=
  acquisition.begin = .raised ∨ acquisition.owner = .gone ∨
    (acquisition.owner = .holding ∧ acquisition.release = .released)

/-- **Where the tasks of an acquisition can be.** -/
structure Ok (acquisition : Acquisition) : Prop where
  done : acquisition.done = true ↔ acquisition.waiter ≠ .queued
  /-- A task that has cleaned up has no slot. -/
  cleaned : acquisition.child = .cleaning .rejected true ∨ acquisition.child = .cleaning .cancelled true ∨
    acquisition.child = .failed .rejected → acquisition.waiter = .abandoned
  cancelled : acquisition.child = .failed .cancelled → acquisition.waiter = .abandoned ∨
    acquisition.begin = .draining ∨ acquisition.begin = .cleaning false
  lease : acquisition.child = .lease → acquisition.waiter = .granted ∨
    (acquisition.waiter = .abandoned ∧
      (acquisition.begin = .cleaning true ∨ acquisition.begin = .raised))
  /-- A caller that has cleaned up has no slot. -/
  abandoned : acquisition.begin = .cleaning true ∨ acquisition.begin = .raised →
    acquisition.waiter = .abandoned
  created : acquisition.child = .created →
    acquisition.begin = .starting ∨ acquisition.begin = .draining
  drained : acquisition.begin = .cleaning false ∨ acquisition.begin = .cleaning true ∨
    acquisition.begin = .raised →
    acquisition.child = .lease ∨ acquisition.child = .failed .rejected ∨
      acquisition.child = .failed .cancelled
  returned : acquisition.begin = .returned ↔ acquisition.owner ≠ .none
  holding : acquisition.owner = .holding ∨ acquisition.owner = .dropping → acquisition.child = .lease
  releasing : acquisition.release ≠ .kept → acquisition.child = .lease ∧
    (acquisition.owner = .holding ∨ acquisition.owner = .dropping ∨ acquisition.owner = .gone)
  gone : acquisition.owner = .gone → acquisition.child = .failed .rejected ∨
    acquisition.child = .failed .cancelled ∨ acquisition.release = .released

end Acquisition

/-! ### The gate -/

structure Gate where
  active : Int
  waiters : List Nat
  /-- The acquisitions that were given a slot, in order; `_acquired_total` is their number. -/
  acquired : List Nat
  cancelledTotal : Nat
  rejected : Counter
  acquisition : Nat → Acquisition
  /-- The number of the next acquisition. -/
  next : Nat

namespace Gate

/-- The gate at its start. -/
def fresh : Gate := ⟨0, [], [], 0, [], fun _ => .fresh, 0⟩

/-- A change of one acquisition. -/
def set (id : Nat) (acquisition : Acquisition) (gate : Gate) : Gate :=
  { gate with acquisition := Function.update gate.acquisition id acquisition }

/-- A slot for an acquisition. -/
def grant (id : Nat) (gate : Gate) : Gate :=
  { gate.set id { gate.acquisition id with waiter := .granted, done := true } with
    active := gate.active + 1
    acquired := gate.acquired ++ [id] }

variable (capacity waiterLimit : Nat)

/-- The loop of `_promote_waiters_locked` on the waiters. -/
def promoteFrom : List Nat → Gate → Gate
  | [], gate => { gate with waiters := [] }
  | id :: rest, gate =>
    if gate.active < capacity then
      if (gate.acquisition id).waiter ≠ .queued ∨ (gate.acquisition id).done = true then
        promoteFrom rest gate
      else promoteFrom rest (gate.grant id)
    else { gate with waiters := id :: rest }

/-- `_promote_waiters_locked`. -/
def promote (gate : Gate) : Gate := promoteFrom capacity gate.waiters gate

/-- `_abandon_waiter` before it promotes; `none` when it returns early. -/
def abandon (id : Nat) (rejectionReason : Option String) (cancelled : Bool) (gate : Gate) :
    Option Gate :=
  let counted := { gate with
    rejected := match rejectionReason with
      | some reason => gate.rejected.add reason 1
      | none => gate.rejected
    cancelledTotal := gate.cancelledTotal + if cancelled then 1 else 0 }
  let acquisition := gate.acquisition id
  match acquisition.waiter with
  | .queued =>
    some { counted.set id { acquisition with waiter := .abandoned, done := true } with
      waiters := gate.waiters.erase id }
  | .granted =>
    some { counted.set id { acquisition with waiter := .abandoned } with active := gate.active - 1 }
  | .abandoned => none

/-- `_abandon_waiter`. -/
def abandonWaiter (id : Nat) (rejectionReason : Option String) (cancelled : Bool) (gate : Gate) : Gate :=
  match gate.abandon id rejectionReason cancelled with
  | some gate => gate.promote capacity
  | none => gate

/-- `_release_slot`: `none` when it raises. -/
def releaseSlot (gate : Gate) : Option Gate :=
  if gate.active ≤ 0 then none else some ({ gate with active := gate.active - 1 }.promote capacity)

/-- A new acquisition that has its slot at once. -/
def resolve (owner : Owner) (gate : Gate) : Gate :=
  { gate.set gate.next (.resolved owner) with
    active := gate.active + 1
    acquired := gate.acquired ++ [gate.next]
    next := gate.next + 1 }

/-- The critical section of `begin_acquire`. -/
def beginAcquire (gate : Gate) : Gate :=
  if gate.active < capacity ∧ gate.waiters = [] then gate.resolve .future
  else if waiterLimit ≤ gate.waiters.length then
    { gate with rejected := gate.rejected.add "queue_full" 1 }
  else
    { gate.set gate.next .queued with
      waiters := gate.waiters ++ [gate.next]
      next := gate.next + 1 }

/-- `try_acquire`. -/
def tryAcquire (gate : Gate) : Gate :=
  if (capacity : Int) ≤ gate.active ∨ gate.waiters ≠ [] then gate else gate.resolve .holding

end Gate

/-! ### Steps -/

/-- What a task does next. -/
inductive Event where
  /-- `begin_acquire` up to its suspension. -/
  | beginAcquire
  | tryAcquire
  /-- The task takes its first step. -/
  | childStarts (id : Nat)
  /-- The task was cancelled before its first step. -/
  | childNeverRuns (id : Nat)
  /-- `wait_for` returns. -/
  | childGranted (id : Nat)
  /-- `wait_for` raises. -/
  | childFails (id : Nat) (failure : Failure)
  /-- The `_abandon_waiter` task of the task runs. -/
  | childAbandons (id : Nat)
  /-- The task raises. -/
  | childEnds (id : Nat)
  /-- `begin_acquire` returns. -/
  | began (id : Nat)
  /-- `begin_acquire` is cancelled while it awaits `started`. -/
  | beginCancelled (id : Nat)
  /-- The task that a cancelled `begin_acquire` awaits has ended. -/
  | beginDrained (id : Nat)
  /-- The `_abandon_waiter` task of `begin_acquire` runs. -/
  | beginAbandons (id : Nat)
  /-- `begin_acquire` raises. -/
  | beginRaises (id : Nat)
  /-- `_await_owned_acquisition` is called, by `acquire` or by the caller of `begin_acquire`. -/
  | await (id : Nat)
  /-- It returns the lease. -/
  | delivered (id : Nat)
  /-- It raises `AdmissionRejected`. -/
  | refused (id : Nat)
  /-- `_cancel_and_release_acquisition` is called, by a cancelled `_await_owned_acquisition` or by the
  caller of `begin_acquire`. -/
  | reclaim (id : Nat)
  /-- The task that it awaits has ended. -/
  | reclaimed (id : Nat)
  /-- The lease that it got is released. -/
  | dropped (id : Nat)
  /-- `release` of a lease is called. -/
  | release (id : Nat)
  /-- The release task runs. -/
  | releaseRuns (id : Nat)

namespace Gate

/-- A task whose guard holds moves on. -/
def move (id : Nat) (enabled : Acquisition → Bool) (change : Acquisition → Acquisition) (gate : Gate) :
    Gate :=
  if enabled (gate.acquisition id) then gate.set id (change (gate.acquisition id)) else gate

variable (capacity waiterLimit : Nat)

/-- **One step.** -/
def step (gate : Gate) : Event → Gate
  | .beginAcquire => gate.beginAcquire capacity waiterLimit
  | .tryAcquire => gate.tryAcquire capacity
  | .childStarts id =>
    gate.move id (fun a => a.child = .created ∧ a.begin = .starting) fun a => { a with child := .waiting }
  | .childNeverRuns id =>
    gate.move id (fun a => a.child = .created ∧ a.begin = .draining)
      fun a => { a with child := .failed .cancelled }
  | .childGranted id =>
    gate.move id (fun a => a.child = .waiting ∧ a.waiter = .granted) fun a => { a with child := .lease }
  | .childFails id failure =>
    gate.move id (fun a => a.child = .waiting) fun a => { a with child := .cleaning failure false }
  | .childAbandons id =>
    match (gate.acquisition id).child with
    | .cleaning failure false =>
      let gate := gate.move id (fun _ => true) fun a => { a with child := .cleaning failure true }
      match failure with
      | .rejected => gate.abandonWaiter capacity id (some "wait_timeout") false
      | .cancelled => gate.abandonWaiter capacity id none true
    | _ => gate
  | .childEnds id =>
    match (gate.acquisition id).child with
    | .cleaning failure true =>
      gate.move id (fun _ => true) fun a => { a with child := .failed failure }
    | _ => gate
  | .began id =>
    gate.move id (fun a => a.begin = .starting ∧ a.child ≠ .created)
      fun a => { a with begin := .returned, owner := .future }
  | .beginCancelled id => gate.move id (fun a => a.begin = .starting) fun a => { a with begin := .draining }
  | .beginDrained id =>
    gate.move id
      (fun a => a.begin = .draining ∧
        (a.child = .lease ∨ a.child = .failed .rejected ∨ a.child = .failed .cancelled))
      fun a => { a with begin := .cleaning false }
  | .beginAbandons id =>
    if (gate.acquisition id).begin = .cleaning false then
      (gate.move id (fun _ => true) fun a => { a with begin := .cleaning true }).abandonWaiter capacity id
        none true
    else gate
  | .beginRaises id =>
    gate.move id (fun a => a.begin = .cleaning true) fun a => { a with begin := .raised }
  | .await id => gate.move id (fun a => a.owner = .future) fun a => { a with owner := .awaiting }
  | .delivered id =>
    gate.move id (fun a => a.owner = .awaiting ∧ a.child = .lease) fun a => { a with owner := .holding }
  | .refused id =>
    gate.move id (fun a => a.owner = .awaiting ∧ a.child = .failed .rejected)
      fun a => { a with owner := .gone }
  | .reclaim id =>
    gate.move id (fun a => a.owner = .future ∨ a.owner = .awaiting) fun a => { a with owner := .reclaiming }
  | .reclaimed id =>
    match (gate.acquisition id).child with
    | .lease =>
      gate.move id (fun a => a.owner = .reclaiming)
        fun a => { a with owner := .dropping, release := .releasing }
    | .failed _ => gate.move id (fun a => a.owner = .reclaiming) fun a => { a with owner := .gone }
    | _ => gate
  | .dropped id =>
    gate.move id (fun a => a.owner = .dropping ∧ a.release = .released) fun a => { a with owner := .gone }
  | .release id =>
    gate.move id (fun a => a.owner = .holding ∧ a.release = .kept) fun a => { a with release := .releasing }
  | .releaseRuns id =>
    if (gate.acquisition id).release = .releasing then
      match gate.releaseSlot capacity with
      | some after => after.move id (fun _ => true) fun a => { a with release := .released }
      -- the slot count would underflow, and the release raises
      | none => gate
    else gate

/-- The steps of a run. -/
def run (events : List Event) : Gate := events.foldl (step capacity waiterLimit) fresh

end Gate

/-! ### Moves of one task -/

namespace Acquisition

variable {a : Acquisition}

theorem fresh_ok : fresh.Ok := by
  constructor <;> simp [fresh]

theorem queued_ok : queued.Ok := by
  constructor <;> simp [queued]

theorem resolved_ok {owner : Owner} (given : owner = .future ∨ owner = .holding) : (resolved owner).Ok := by
  rcases given with rfl | rfl <;> constructor <;> simp [resolved]

/-- **The moves of a task** that touch neither the waiter nor a slot. -/
inductive Moves (a : Acquisition) : Acquisition → Prop
  | childStarts (created : a.child = .created) (starting : a.begin = .starting) :
      Moves a { a with child := .waiting }
  | childNeverRuns (created : a.child = .created) (draining : a.begin = .draining) :
      Moves a { a with child := .failed .cancelled }
  | childGranted (waiting : a.child = .waiting) (granted : a.waiter = .granted) :
      Moves a { a with child := .lease }
  | childFails (waiting : a.child = .waiting) (failure : Failure) :
      Moves a { a with child := .cleaning failure false }
  | childEnds {failure : Failure} (cleaning : a.child = .cleaning failure true) :
      Moves a { a with child := .failed failure }
  | began (starting : a.begin = .starting) (started : a.child ≠ .created) :
      Moves a { a with begin := .returned, owner := .future }
  | beginCancelled (starting : a.begin = .starting) : Moves a { a with begin := .draining }
  | beginDrained (draining : a.begin = .draining)
      (ended : a.child = .lease ∨ a.child = .failed .rejected ∨ a.child = .failed .cancelled) :
      Moves a { a with begin := .cleaning false }
  | beginRaises (cleaned : a.begin = .cleaning true) : Moves a { a with begin := .raised }
  | await (future : a.owner = .future) : Moves a { a with owner := .awaiting }
  | delivered (awaiting : a.owner = .awaiting) (lease : a.child = .lease) :
      Moves a { a with owner := .holding }
  | refused (awaiting : a.owner = .awaiting) (rejected : a.child = .failed .rejected) :
      Moves a { a with owner := .gone }
  | reclaim (given : a.owner = .future ∨ a.owner = .awaiting) : Moves a { a with owner := .reclaiming }
  | reclaimedLease (reclaiming : a.owner = .reclaiming) (lease : a.child = .lease) :
      Moves a { a with owner := .dropping, release := .releasing }
  | reclaimedNothing {failure : Failure} (reclaiming : a.owner = .reclaiming)
      (failed : a.child = .failed failure) : Moves a { a with owner := .gone }
  | dropped (dropping : a.owner = .dropping) (released : a.release = .released) :
      Moves a { a with owner := .gone }
  | release (holding : a.owner = .holding) (kept : a.release = .kept) :
      Moves a { a with release := .releasing }

/-- **A move keeps the tasks where they can be.** -/
theorem Moves.ok {b : Acquisition} (moves : Moves a b) (ok : a.Ok) : b.Ok := by
  obtain ⟨done, cleaned, cancelled, lease, abandoned, created, drained, returned, holding, releasing, gone⟩ := ok
  cases moves with
  | @childEnds failure cleaning => cases failure <;> constructor <;> first | assumption | grind
  | @reclaimedNothing failure reclaiming failed => cases failure <;> constructor <;> first | assumption | grind
  | _ => constructor <;> first | assumption | grind

theorem Moves.waiter {b : Acquisition} (moves : Moves a b) : b.waiter = a.waiter := by
  cases moves <;> rfl

theorem Moves.slot {b : Acquisition} (moves : Moves a b) (isOk : a.Ok) : b.Slot ↔ a.Slot := by
  have kept := isOk.releasing
  unfold Slot
  cases moves <;> grind

theorem Moves.ne_fresh {b : Acquisition} (moves : Moves a b) : a ≠ fresh := by
  rintro rfl
  unfold fresh at moves
  cases moves <;> grind

theorem Ok.childAbandons (ok : a.Ok) {failure : Failure} (cleaning : a.child = .cleaning failure false) :
    ({ a with waiter := .abandoned, done := true, child := .cleaning failure true } : Acquisition).Ok := by
  obtain ⟨done, cleaned, cancelled, lease, abandoned, created, drained, returned, holding, releasing, gone⟩ := ok
  cases failure <;> constructor <;> grind

theorem Ok.beginAbandons (ok : a.Ok) (cleaning : a.begin = .cleaning false) :
    ({ a with waiter := .abandoned, done := true, begin := .cleaning true } : Acquisition).Ok := by
  obtain ⟨done, cleaned, cancelled, lease, abandoned, created, drained, returned, holding, releasing, gone⟩ := ok
  constructor <;> grind

theorem Ok.unreleased (ok : a.Ok)
    (cleaning : (∃ failure ran, a.child = .cleaning failure ran) ∨ a.begin = .cleaning false) :
    a.release ≠ .released := by
  intro released
  obtain ⟨lease, owner⟩ := ok.releasing (by rw [released]; exact nofun)
  rcases cleaning with ⟨failure, ran, child⟩ | begin
  · cases lease.symm.trans child
  · have given : a.begin = .returned := ok.returned.mpr fun none => by
      rw [none] at owner
      rcases owner with here | here | here <;> cases here
    cases given.symm.trans begin

theorem Ok.released (ok : a.Ok) (releasing : a.release = .releasing) :
    ({ a with release := .released } : Acquisition).Ok ∧ a.waiter = .granted := by
  obtain ⟨done, cleaned, cancelled, lease, abandoned, created, drained, returned, holding, releasings, gone⟩ := ok
  refine ⟨?_, ?_⟩
  · constructor <;> grind
  · obtain ⟨got, owner⟩ := releasings (by rw [releasing]; exact nofun)
    have given : a.begin = .returned := returned.mpr (by rintro none; simp_all)
    rcases lease got with granted | ⟨-, gone⟩
    · exact granted
    · rw [given] at gone
      rcases gone with gone | gone <;> cases gone

/-- **Who is done with an acquisition has no slot.** -/
theorem Ok.finished (ok : a.Ok) (finished : a.Finished) : ¬ a.Slot := by
  rintro ⟨granted, unreleased⟩
  rcases finished with raised | ended | ⟨-, released⟩
  · cases granted.symm.trans (ok.abandoned (Or.inr raised))
  · have given : a.begin = .returned := ok.returned.mpr (by rw [ended]; exact nofun)
    rcases ok.gone ended with rejected | failed | released
    · cases granted.symm.trans (ok.cleaned (Or.inr (Or.inr rejected)))
    · rcases ok.cancelled failed with gone | draining | cleaning
      · cases granted.symm.trans gone
      · cases given.symm.trans draining
      · cases given.symm.trans cleaning
    · exact unreleased released
  · exact unreleased released

end Acquisition

/-! ### The invariant -/

namespace Gate

variable {capacity waiterLimit : Nat} {gate : Gate}

@[simp] theorem set_acquisition (id other : Nat) (acquisition : Acquisition) (gate : Gate) :
    (gate.set id acquisition).acquisition other =
      if other = id then acquisition else gate.acquisition other :=
  Function.update_apply _ _ _ _

/-- **The gate is sound**, but for some slots that are given back and still counted by their tasks. -/
structure Sound (capacity waiterLimit owed : Nat) (gate : Gate) : Prop where
  ok : ∀ id, (gate.acquisition id).Ok
  queue : ∀ id, id ∈ gate.waiters ↔ (gate.acquisition id).waiter = .queued
  sorted : gate.waiters.Pairwise (· < ·)
  later : ∀ id, gate.next ≤ id → gate.acquisition id = .fresh
  slots : gate.active + owed = countUpTo (fun id => (gate.acquisition id).Slot) gate.next
  within : gate.active ≤ capacity
  limit : gate.waiters.length ≤ waiterLimit
  inOrder : gate.acquired.Pairwise (· < ·)
  before : ∀ id ∈ gate.acquired, id < gate.next ∧ ∀ waiter ∈ gate.waiters, id < waiter

/-- A free slot has no waiter. -/
def Settled (capacity : Nat) (gate : Gate) : Prop := gate.active < capacity → gate.waiters = []

theorem fresh_sound (capacity waiterLimit : Nat) : fresh.Sound capacity waiterLimit 0 where
  ok _ := Acquisition.fresh_ok
  queue _ := ⟨nofun, nofun⟩
  sorted := List.Pairwise.nil
  later _ _ := rfl
  slots := rfl
  within := Int.natCast_nonneg _
  limit := Nat.zero_le _
  inOrder := List.Pairwise.nil
  before := nofun

variable {owed : Nat}

theorem Sound.known (sound : gate.Sound capacity waiterLimit owed) {id : Nat}
    (known : gate.acquisition id ≠ .fresh) : id < gate.next := by
  by_contra late
  exact known (sound.later id (Nat.le_of_not_lt late))

theorem Sound.queued_lt (sound : gate.Sound capacity waiterLimit owed) {id : Nat}
    (inside : id ∈ gate.waiters) : id < gate.next := by
  refine sound.known fun fresh => ?_
  have queued := (sound.queue id).mp inside
  rw [fresh] at queued
  cases queued

/-- **An acquisition changes** and keeps its waiter; its slot may be given back. -/
theorem Sound.change (sound : gate.Sound capacity waiterLimit owed) {id : Nat} {acquisition : Acquisition}
    (known : id < gate.next) (ok : acquisition.Ok)
    (waiter : acquisition.waiter = .queued ↔ (gate.acquisition id).waiter = .queued) (left : Nat)
    (slots : owed + (if acquisition.Slot then 1 else 0) =
      left + if (gate.acquisition id).Slot then 1 else 0) :
    (gate.set id acquisition).Sound capacity waiterLimit left := by
  refine ⟨fun other => ?_, fun other => ?_, sound.sorted, fun other late => ?_, ?_, sound.within,
    sound.limit, sound.inOrder, sound.before⟩
  · rw [set_acquisition]
    split
    · exact ok
    · exact sound.ok other
  · rw [set_acquisition]
    split
    · rename_i same
      rw [waiter, ← same]
      exact sound.queue other
    · exact sound.queue other
  · have late : gate.next ≤ other := late
    rw [set_acquisition, if_neg (by omega)]
    exact sound.later other late
  · have moved := countUpTo_update (fun other => ((gate.set id acquisition).acquisition other).Slot)
      (fun other => (gate.acquisition other).Slot) known
      fun other different => by rw [set_acquisition, if_neg different]
    rw [set_acquisition, if_pos rfl] at moved
    have before := sound.slots
    show gate.active + left = (countUpTo _ gate.next : Nat)
    omega

/-! ### Critical sections -/

/-- A waiter that is queued has no slot, and a grant gives it one. -/
theorem ok_granted {a : Acquisition} (ok : a.Ok) (queued : a.waiter = .queued) :
    ({ a with waiter := .granted, done := true } : Acquisition).Ok ∧ ¬ a.Slot ∧
      ({ a with waiter := .granted, done := true } : Acquisition).Slot := by
  have unreleased : a.release = .kept := by
    by_contra other
    rcases ok.lease (ok.releasing other).1 with granted | ⟨gone, -⟩
    · cases queued.symm.trans granted
    · cases queued.symm.trans gone
  refine ⟨?_, fun slot => ?_, rfl, ?_⟩
  · obtain ⟨done, cleaned, cancelled, lease, abandoned, created, drained, returned, holding, releasing, gone⟩ := ok
    constructor <;> grind
  · cases queued.symm.trans slot.1
  · show a.release ≠ .released
    rw [unreleased]
    exact nofun

theorem Sound.grant (sound : gate.Sound capacity waiterLimit owed) {id : Nat} {rest : List Nat}
    (line : gate.waiters = id :: rest) (free : gate.active < capacity) :
    ({ gate.grant id with waiters := rest } : Gate).Sound capacity waiterLimit owed := by
  have first : id ∈ gate.waiters := by
    rw [line]
    exact List.mem_cons_self
  have known := sound.queued_lt first
  have queued := (sound.queue id).mp first
  have acquisitions : ∀ other, ({ gate.grant id with waiters := rest } : Gate).acquisition other =
      if other = id then { gate.acquisition id with waiter := .granted, done := true }
      else gate.acquisition other := fun other => set_acquisition _ _ _ _
  obtain ⟨ok, noSlot, slot⟩ := ok_granted (sound.ok id) queued
  obtain ⟨earlier, sorted⟩ := List.pairwise_cons.mp (line ▸ sound.sorted)
  refine ⟨fun other => ?_, fun other => ?_, sorted, fun other late => ?_, ?_, ?_, ?_, ?_, ?_⟩
  · rw [acquisitions]
    split
    · exact ok
    · exact sound.ok other
  · rw [acquisitions]
    have before := sound.queue other
    rw [line] at before
    split
    · rename_i same
      subst same
      exact ⟨fun inside => absurd (earlier other inside) (Nat.lt_irrefl other), nofun⟩
    · rename_i different
      rw [← before, List.mem_cons]
      exact ⟨Or.inr, fun inside => inside.resolve_left different⟩
  · have late : gate.next ≤ other := late
    rw [acquisitions, if_neg (by omega)]
    exact sound.later other late
  · have moved := countUpTo_update
      (fun other => (({ gate.grant id with waiters := rest } : Gate).acquisition other).Slot)
      (fun other => (gate.acquisition other).Slot) known
      fun other different => by rw [acquisitions, if_neg different]
    rw [acquisitions, if_pos rfl, if_neg noSlot, if_pos slot] at moved
    have before := sound.slots
    show gate.active + 1 + owed = (countUpTo _ gate.next : Nat)
    omega
  · show gate.active + 1 ≤ capacity
    omega
  · have limit := sound.limit
    rw [line] at limit
    exact Nat.le_of_succ_le limit
  · refine List.pairwise_append.mpr ⟨sound.inOrder, List.pairwise_singleton _ _, fun other old key new => ?_⟩
    rw [List.mem_singleton.mp new]
    exact (sound.before other old).2 id first
  · intro other member
    rcases List.mem_append.mp member with old | new
    · obtain ⟨below, earlier⟩ := sound.before other old
      exact ⟨below, fun waiter inside => earlier waiter (line ▸ List.mem_cons_of_mem _ inside)⟩
    · rw [List.mem_singleton.mp new]
      exact ⟨known, earlier⟩

theorem promoteFrom_sound (waiters : List Nat)
    (sound : ({ gate with waiters } : Gate).Sound capacity waiterLimit owed) :
    (promoteFrom capacity waiters gate).Sound capacity waiterLimit owed ∧
      (promoteFrom capacity waiters gate).Settled capacity := by
  induction waiters generalizing gate with
  | nil => exact ⟨sound, fun _ => rfl⟩
  | cons id rest ih =>
    unfold promoteFrom
    split
    · rename_i free
      have queued : (gate.acquisition id).waiter = .queued := (sound.queue id).mp List.mem_cons_self
      have undone : (gate.acquisition id).done ≠ true := by
        intro done
        exact (sound.ok id).done.mp done queued
      rw [if_neg (not_or.mpr ⟨not_not_intro queued, undone⟩)]
      exact ih (sound.grant rfl free)
    · rename_i full
      exact ⟨sound, fun free => absurd free full⟩

/-- **`_promote_waiters_locked`** leaves no free slot to a waiter. -/
theorem promote_sound (sound : gate.Sound capacity waiterLimit owed) :
    (gate.promote capacity).Sound capacity waiterLimit owed ∧
      (gate.promote capacity).Settled capacity :=
  promoteFrom_sound gate.waiters sound

theorem promoteFrom_keeps (waiters : List Nat) {id : Nat} (elsewhere : id ∉ waiters) :
    (promoteFrom capacity waiters gate).acquisition id = gate.acquisition id ∧
      (promoteFrom capacity waiters gate).next = gate.next := by
  induction waiters generalizing gate with
  | nil => exact ⟨rfl, rfl⟩
  | cons head rest ih =>
    have different : id ≠ head := fun same => elsewhere (same ▸ List.mem_cons_self)
    have absent : id ∉ rest := fun inside => elsewhere (List.mem_cons_of_mem _ inside)
    unfold promoteFrom
    split
    · split
      · exact ih absent
      · obtain ⟨same, next⟩ := @ih (gate.grant head) absent
        refine ⟨same.trans ?_, next⟩
        show (gate.set head _).acquisition id = _
        rw [set_acquisition, if_neg different]
    · exact ⟨rfl, rfl⟩

theorem Sound.counters (sound : gate.Sound capacity waiterLimit owed) (rejected : Counter)
    (cancelledTotal : Nat) :
    ({ gate with rejected, cancelledTotal } : Gate).Sound capacity waiterLimit owed :=
  ⟨sound.ok, sound.queue, sound.sorted, sound.later, sound.slots, sound.within, sound.limit,
    sound.inOrder, sound.before⟩

theorem Sound.leave (sound : gate.Sound capacity waiterLimit owed) {id : Nat} {acquisition : Acquisition}
    (queued : (gate.acquisition id).waiter = .queued) (ok : acquisition.Ok)
    (abandoned : acquisition.waiter = .abandoned) :
    ({ gate.set id acquisition with waiters := gate.waiters.erase id } : Gate).Sound capacity waiterLimit
      owed := by
  have inside := (sound.queue id).mpr queued
  have known := sound.queued_lt inside
  have once : gate.waiters.Nodup := sound.sorted.imp Nat.ne_of_lt
  have acquisitions : ∀ other,
      ({ gate.set id acquisition with waiters := gate.waiters.erase id } : Gate).acquisition other =
        if other = id then acquisition else gate.acquisition other :=
    fun other => set_acquisition _ _ _ _
  refine ⟨fun other => ?_, fun other => ?_, sound.sorted.sublist List.erase_sublist,
    fun other late => ?_, ?_, sound.within, ?_, sound.inOrder, fun other member => ?_⟩
  · rw [acquisitions]
    split
    · exact ok
    · exact sound.ok other
  · rw [acquisitions]
    show other ∈ gate.waiters.erase id ↔ _
    rw [once.mem_erase_iff]
    split
    · rename_i same
      rw [abandoned]
      exact ⟨fun inside => absurd same inside.1, nofun⟩
    · rename_i different
      rw [← sound.queue other]
      exact ⟨And.right, fun inside => ⟨different, inside⟩⟩
  · have late : gate.next ≤ other := late
    rw [acquisitions, if_neg (by omega)]
    exact sound.later other late
  · have noSlot : ∀ a : Acquisition, a.waiter ≠ .granted → ¬ a.Slot := fun a other slot => other slot.1
    have moved := countUpTo_update
      (fun other => (({ gate.set id acquisition with waiters := gate.waiters.erase id } : Gate).acquisition
        other).Slot)
      (fun other => (gate.acquisition other).Slot) known
      fun other different => by rw [acquisitions, if_neg different]
    rw [acquisitions, if_pos rfl, if_neg (noSlot _ (by rw [queued]; exact nofun)),
      if_neg (noSlot _ (by rw [abandoned]; exact nofun))] at moved
    have before := sound.slots
    show gate.active + owed = (countUpTo _ gate.next : Nat)
    omega
  · exact Nat.le_trans (List.erase_sublist.length_le) sound.limit
  · obtain ⟨below, earlier⟩ := sound.before other member
    exact ⟨below, fun waiter inside => earlier waiter (List.mem_of_mem_erase inside)⟩

theorem Sound.giveBack (sound : gate.Sound capacity waiterLimit owed) (active : Int) (left : Nat)
    (same : active + left = gate.active + owed) (less : active ≤ gate.active) :
    ({ gate with active } : Gate).Sound capacity waiterLimit left := by
  refine ⟨sound.ok, sound.queue, sound.sorted, sound.later, ?_, Int.le_trans less sound.within,
    sound.limit, sound.inOrder, sound.before⟩
  show active + left = _
  rw [same]
  exact sound.slots

/-- **`_abandon_waiter`** for a task that cleans up. -/
theorem abandonWaiter_sound (sound : gate.Sound capacity waiterLimit 0) (settled : gate.Settled capacity)
    {id : Nat} (known : id < gate.next) (acquisition : Acquisition)
    (waiter : acquisition.waiter = (gate.acquisition id).waiter)
    (done : acquisition.done = (gate.acquisition id).done)
    (kept : (gate.acquisition id).release ≠ .released)
    (ok : ({ acquisition with waiter := .abandoned, done := true } : Acquisition).Ok)
    (reason : Option String) (cancelled : Bool) :
    ((gate.set id acquisition).abandonWaiter capacity id reason cancelled).Sound capacity waiterLimit 0 ∧
      ((gate.set id acquisition).abandonWaiter capacity id reason cancelled).Settled capacity := by
  have own : (gate.set id acquisition).acquisition id = acquisition := by
    rw [set_acquisition, if_pos rfl]
  have ended : (gate.acquisition id).waiter ≠ .queued → acquisition.done = true := fun ended =>
    done.trans ((sound.ok id).done.mpr ended)
  unfold abandonWaiter abandon
  simp only [own, waiter]
  cases state : (gate.acquisition id).waiter with
  | queued =>
    refine promote_sound ?_
    have gone := (sound.leave state ok rfl).counters
      (match reason with
        | some reason => gate.rejected.add reason 1
        | none => gate.rejected)
      (gate.cancelledTotal + if cancelled then 1 else 0)
    simpa only [set, Function.update_idem] using gone
  | granted =>
    have done := ended (by rw [state]; exact nofun)
    have slot : (gate.acquisition id).Slot := ⟨state, kept⟩
    have noSlot : ¬ ({ acquisition with waiter := .abandoned, done := true } : Acquisition).Slot :=
      fun slot => by cases slot.1
    have paid := sound.giveBack (gate.active - 1) 1 (by omega) (by omega)
    have changed := paid.change known ok (by
      show _ ↔ (gate.acquisition id).waiter = _
      rw [state]
      exact ⟨nofun, nofun⟩) 0 (by
      show 1 + _ = 0 + if (gate.acquisition id).Slot then 1 else 0
      rw [if_neg noSlot, if_pos slot])
    have same : ({ acquisition with waiter := .abandoned } : Acquisition) =
        { acquisition with waiter := .abandoned, done := true } := by rw [← done]
    refine promote_sound ?_
    have counted := changed.counters
      (match reason with
        | some reason => gate.rejected.add reason 1
        | none => gate.rejected)
      (gate.cancelledTotal + if cancelled then 1 else 0)
    rw [same]
    simpa only [set, Function.update_idem] using counted
  | abandoned =>
    have done := ended (by rw [state]; exact nofun)
    have same : acquisition = { acquisition with waiter := .abandoned, done := true } := by
      rw [← done, ← state, ← waiter]
    refine ⟨sound.change known (same ▸ ok) (by rw [waiter]) 0 ?_, settled⟩
    have noSlot : ∀ a : Acquisition, a.waiter ≠ .granted → ¬ a.Slot := fun a other slot => other slot.1
    rw [if_neg (noSlot _ (by rw [waiter, state]; exact nofun)), if_neg (noSlot _ (by rw [state]; exact nofun))]

/-- **`_release_slot`** by the release task of a lease. -/
theorem releaseRuns_sound (sound : gate.Sound capacity waiterLimit 0) {id : Nat}
    (releasing : (gate.acquisition id).release = .releasing) :
    ∃ after, gate.releaseSlot capacity = some after ∧
      (after.set id { after.acquisition id with release := .released }).Sound capacity waiterLimit 0 ∧
      (after.set id { after.acquisition id with release := .released }).Settled capacity := by
  obtain ⟨ok, granted⟩ := Acquisition.Ok.released (sound.ok id) releasing
  have known : id < gate.next := by
    refine sound.known fun fresh => ?_
    rw [fresh] at releasing
    cases releasing
  have slot : (gate.acquisition id).Slot := ⟨granted, by rw [releasing]; exact nofun⟩
  have positive : 0 < gate.active := by
    have counted := sound.slots
    have some : 0 < countUpTo (fun id => (gate.acquisition id).Slot) gate.next :=
      countUpTo_pos known slot
    omega
  have elsewhere : id ∉ gate.waiters := by
    intro inside
    cases granted.symm.trans ((sound.queue id).mp inside)
  obtain ⟨same, next⟩ :=
    @promoteFrom_keeps capacity { gate with active := gate.active - 1 } gate.waiters id elsewhere
  obtain ⟨paid, settled⟩ := promote_sound (sound.giveBack (gate.active - 1) 1 (by omega) (by omega))
  refine ⟨_, if_neg (by omega), ?_, settled⟩
  have same : (promote capacity { gate with active := gate.active - 1 }).acquisition id =
      gate.acquisition id := same
  have next : (promote capacity { gate with active := gate.active - 1 }).next = gate.next := next
  rw [same]
  refine paid.change (by rw [next]; exact known) ok (by rw [same]) 0 ?_
  have noSlot : ¬ ({ gate.acquisition id with release := .released } : Acquisition).Slot :=
    fun slot => slot.2 rfl
  rw [same, if_neg noSlot, if_pos slot]

theorem Sound.resolve (sound : gate.Sound capacity waiterLimit 0) (free : gate.active < capacity)
    (empty : gate.waiters = []) {owner : Owner} (given : owner = .future ∨ owner = .holding) :
    (gate.resolve owner).Sound capacity waiterLimit 0 ∧ (gate.resolve owner).Settled capacity := by
  have acquisitions : ∀ other, (gate.resolve owner).acquisition other =
      if other = gate.next then .resolved owner else gate.acquisition other :=
    fun other => set_acquisition _ _ _ _
  refine ⟨⟨fun other => ?_, fun other => ?_, sound.sorted, fun other late => ?_, ?_, ?_, sound.limit,
    ?_, fun other member => ?_⟩, fun _ => empty⟩
  · rw [acquisitions]
    split
    · exact Acquisition.resolved_ok given
    · exact sound.ok other
  · have before := sound.queue other
    rw [acquisitions]
    show other ∈ gate.waiters ↔ _
    split
    · rw [empty]
      exact ⟨nofun, nofun⟩
    · exact before
  · have late : gate.next + 1 ≤ other := late
    rw [acquisitions, if_neg (by omega)]
    exact sound.later other (by omega)
  · have before := sound.slots
    have more : countUpTo (fun id => ((gate.resolve owner).acquisition id).Slot) (gate.next + 1) =
        countUpTo (fun id => (gate.acquisition id).Slot) gate.next + 1 := by
      have slot : (Acquisition.resolved owner).Slot := ⟨rfl, nofun⟩
      rw [countUpTo_succ, acquisitions, if_pos rfl, if_pos slot]
      congr 1
      refine countUpTo_congr fun id below => ?_
      rw [acquisitions, if_neg (Nat.ne_of_lt below)]
    show gate.active + 1 + (0 : Nat) = (countUpTo _ (gate.next + 1) : Nat)
    rw [more]
    omega
  · show gate.active + 1 ≤ capacity
    omega
  · refine List.pairwise_append.mpr ⟨sound.inOrder, List.pairwise_singleton _ _, fun old there new here => ?_⟩
    rw [List.mem_singleton.mp here]
    exact (sound.before old there).1
  · refine ⟨?_, fun waiter inside => ?_⟩
    · show other < gate.next + 1
      rcases List.mem_append.mp member with old | new
      · exact Nat.lt_succ_of_lt (sound.before other old).1
      · rw [List.mem_singleton.mp new]
        exact Nat.lt_succ_self _
    · have inside : waiter ∈ gate.waiters := inside
      rw [empty] at inside
      cases inside

theorem Sound.join (sound : gate.Sound capacity waiterLimit 0) (room : gate.waiters.length < waiterLimit) :
    ({ gate.set gate.next .queued with
      waiters := gate.waiters ++ [gate.next], next := gate.next + 1 } : Gate).Sound capacity
        waiterLimit 0 := by
  have acquisitions : ∀ other, ({ gate.set gate.next .queued with
      waiters := gate.waiters ++ [gate.next], next := gate.next + 1 } : Gate).acquisition other =
        if other = gate.next then .queued else gate.acquisition other :=
    fun other => set_acquisition _ _ _ _
  refine ⟨fun other => ?_, fun other => ?_, ?_, fun other late => ?_, ?_, sound.within, ?_,
    sound.inOrder, fun other member => ?_⟩
  · rw [acquisitions]
    split
    · exact Acquisition.queued_ok
    · exact sound.ok other
  · rw [acquisitions]
    show other ∈ gate.waiters ++ [gate.next] ↔ _
    rw [List.mem_append, List.mem_singleton, sound.queue other]
    split
    · rename_i same
      exact ⟨fun _ => rfl, fun _ => Or.inr same⟩
    · rename_i different
      exact ⟨fun inside => inside.resolve_right different, Or.inl⟩
  · refine List.pairwise_append.mpr ⟨sound.sorted, List.pairwise_singleton _ _, fun old there new here => ?_⟩
    rw [List.mem_singleton.mp here]
    exact sound.queued_lt there
  · have late : gate.next + 1 ≤ other := late
    rw [acquisitions, if_neg (by omega)]
    exact sound.later other (by omega)
  · have before := sound.slots
    have same : countUpTo (fun id => (({ gate.set gate.next .queued with
        waiters := gate.waiters ++ [gate.next], next := gate.next + 1 } : Gate).acquisition id).Slot)
          (gate.next + 1) = countUpTo (fun id => (gate.acquisition id).Slot) gate.next := by
      have noSlot : ¬ Acquisition.queued.Slot := fun slot => by cases slot.1
      rw [countUpTo_succ, acquisitions, if_pos rfl, if_neg noSlot]
      refine countUpTo_congr fun id below => ?_
      rw [acquisitions, if_neg (Nat.ne_of_lt below)]
    show gate.active + (0 : Nat) = (countUpTo _ (gate.next + 1) : Nat)
    rw [same]
    exact before
  · show (gate.waiters ++ [gate.next]).length ≤ waiterLimit
    rw [List.length_append, List.length_singleton]
    exact room
  · obtain ⟨below, earlier⟩ := sound.before other member
    refine ⟨Nat.lt_succ_of_lt below, fun waiter inside => ?_⟩
    rcases List.mem_append.mp inside with old | new
    · exact earlier waiter old
    · rw [List.mem_singleton.mp new]
      exact below

/-- **A task moves.** -/
theorem move_sound (sound : gate.Sound capacity waiterLimit 0) (settled : gate.Settled capacity) {id : Nat}
    {enabled : Acquisition → Bool} {change : Acquisition → Acquisition}
    (moves : enabled (gate.acquisition id) = true →
      Acquisition.Moves (gate.acquisition id) (change (gate.acquisition id))) :
    (gate.move id enabled change).Sound capacity waiterLimit 0 ∧
      (gate.move id enabled change).Settled capacity := by
  unfold move
  split
  · rename_i here
    have moved := moves here
    have ok := sound.ok id
    have slot := moved.slot ok
    refine ⟨sound.change (sound.known moved.ne_fresh) (moved.ok ok) (by rw [moved.waiter]) 0 ?_, settled⟩
    simp only [slot]
  · exact ⟨sound, settled⟩

/-- **One step keeps the invariant.** -/
theorem step_sound (sound : gate.Sound capacity waiterLimit 0) (settled : gate.Settled capacity)
    (event : Event) :
    (gate.step capacity waiterLimit event).Sound capacity waiterLimit 0 ∧
      (gate.step capacity waiterLimit event).Settled capacity := by
  unfold step
  cases event with
  | beginAcquire =>
    dsimp only
    unfold beginAcquire
    split
    · rename_i free
      exact sound.resolve free.1 free.2 (Or.inl rfl)
    · rename_i busy
      split
      · exact ⟨sound.counters _ _, settled⟩
      · rename_i room
        refine ⟨sound.join (Nat.lt_of_not_le room), fun free => ?_⟩
        exact absurd ⟨free, settled free⟩ busy
  | tryAcquire =>
    dsimp only
    unfold tryAcquire
    split
    · exact ⟨sound, settled⟩
    · rename_i free
      obtain ⟨free, empty⟩ := not_or.mp free
      exact sound.resolve (Int.lt_of_not_ge free) (not_not.mp empty) (Or.inr rfl)
  | childStarts id =>
    refine move_sound sound settled fun enabled => ?_
    obtain ⟨created, starting⟩ := of_decide_eq_true enabled
    exact .childStarts created starting
  | childNeverRuns id =>
    refine move_sound sound settled fun enabled => ?_
    obtain ⟨created, draining⟩ := of_decide_eq_true enabled
    exact .childNeverRuns created draining
  | childGranted id =>
    refine move_sound sound settled fun enabled => ?_
    obtain ⟨waiting, granted⟩ := of_decide_eq_true enabled
    exact .childGranted waiting granted
  | childFails id failure =>
    exact move_sound sound settled fun enabled => .childFails (of_decide_eq_true enabled) failure
  | childAbandons id =>
    dsimp only
    split
    · rename_i failure cleaning
      have known := sound.known fun fresh => by
        rw [fresh] at cleaning
        cases cleaning
      have kept := (sound.ok id).unreleased (Or.inl ⟨failure, false, cleaning⟩)
      have ok := (sound.ok id).childAbandons cleaning
      have result := abandonWaiter_sound sound settled known
        { gate.acquisition id with child := .cleaning failure true } rfl rfl kept ok
      cases failure with
      | rejected => exact result _ _
      | cancelled => exact result _ _
    · exact ⟨sound, settled⟩
  | childEnds id =>
    dsimp only
    split
    · rename_i failure cleaning
      exact move_sound sound settled fun _ => .childEnds cleaning
    · exact ⟨sound, settled⟩
  | began id =>
    refine move_sound sound settled fun enabled => ?_
    obtain ⟨starting, started⟩ := of_decide_eq_true enabled
    exact .began starting started
  | beginCancelled id =>
    exact move_sound sound settled fun enabled => .beginCancelled (of_decide_eq_true enabled)
  | beginDrained id =>
    refine move_sound sound settled fun enabled => ?_
    obtain ⟨draining, ended⟩ := of_decide_eq_true enabled
    exact .beginDrained draining ended
  | beginAbandons id =>
    dsimp only
    split
    · rename_i cleaning
      have known := sound.known fun fresh => by
        rw [fresh] at cleaning
        cases cleaning
      have kept := (sound.ok id).unreleased (Or.inr cleaning)
      exact abandonWaiter_sound sound settled known
        { gate.acquisition id with begin := .cleaning true } rfl rfl kept
        ((sound.ok id).beginAbandons cleaning) _ _
    · exact ⟨sound, settled⟩
  | beginRaises id =>
    exact move_sound sound settled fun enabled => .beginRaises (of_decide_eq_true enabled)
  | await id => exact move_sound sound settled fun enabled => .await (of_decide_eq_true enabled)
  | delivered id =>
    refine move_sound sound settled fun enabled => ?_
    obtain ⟨awaiting, lease⟩ := of_decide_eq_true enabled
    exact .delivered awaiting lease
  | refused id =>
    refine move_sound sound settled fun enabled => ?_
    obtain ⟨awaiting, rejected⟩ := of_decide_eq_true enabled
    exact .refused awaiting rejected
  | reclaim id => exact move_sound sound settled fun enabled => .reclaim (of_decide_eq_true enabled)
  | reclaimed id =>
    dsimp only
    split
    · rename_i lease
      exact move_sound sound settled fun enabled => .reclaimedLease (of_decide_eq_true enabled) lease
    · rename_i failure failed
      exact move_sound sound settled fun enabled => .reclaimedNothing (of_decide_eq_true enabled) failed
    · exact ⟨sound, settled⟩
  | dropped id =>
    refine move_sound sound settled fun enabled => ?_
    obtain ⟨dropping, released⟩ := of_decide_eq_true enabled
    exact .dropped dropping released
  | release id =>
    refine move_sound sound settled fun enabled => ?_
    obtain ⟨holding, kept⟩ := of_decide_eq_true enabled
    exact .release holding kept
  | releaseRuns id =>
    dsimp only
    split
    · rename_i releasing
      obtain ⟨after, given, result⟩ := releaseRuns_sound sound releasing
      rw [given]
      exact result
    · exact ⟨sound, settled⟩

/-- **Every run keeps the invariant.** -/
theorem run_sound (capacity waiterLimit : Nat) (events : List Event) :
    (run capacity waiterLimit events).Sound capacity waiterLimit 0 ∧
      (run capacity waiterLimit events).Settled capacity :=
  List.foldlRecOn events (step capacity waiterLimit)
    (motive := fun gate => gate.Sound capacity waiterLimit 0 ∧ gate.Settled capacity)
    ⟨fresh_sound capacity waiterLimit, fun _ => rfl⟩
    fun _ invariant event _ => step_sound invariant.1 invariant.2 event

/-- Slots are leases that callers hold, and grants that did not reach them. -/
theorem slots_split (acquisition : Nat → Acquisition) (ok : ∀ id, (acquisition id).Ok) (bound : Nat) :
    countUpTo (fun id => (acquisition id).Slot) bound =
      countUpTo (fun id => (acquisition id).Held) bound +
        countUpTo (fun id => (acquisition id).Undelivered) bound := by
  induction bound with
  | zero => rfl
  | succ bound ih =>
    rw [countUpTo_succ, countUpTo_succ, countUpTo_succ, ih]
    have split : (acquisition bound).Slot ↔ (acquisition bound).Held ∨ (acquisition bound).Undelivered := by
      constructor
      · intro slot
        by_cases holding : (acquisition bound).owner = .holding
        · exact Or.inl ⟨holding, slot.2⟩
        · exact Or.inr ⟨slot, holding⟩
      · rintro (⟨holding, unreleased⟩ | ⟨slot, -⟩)
        · refine ⟨?_, unreleased⟩
          have given : (acquisition bound).begin = .returned :=
            (ok bound).returned.mpr (by rw [holding]; exact nofun)
          rcases (ok bound).lease ((ok bound).holding (Or.inl holding)) with granted | ⟨-, gone | gone⟩
          · exact granted
          · cases given.symm.trans gone
          · cases given.symm.trans gone
        · exact slot
    have apart : ¬ ((acquisition bound).Held ∧ (acquisition bound).Undelivered) :=
      fun both => both.2.2 both.1.1
    by_cases held : (acquisition bound).Held
    · have notUndelivered : ¬ (acquisition bound).Undelivered := fun here => apart ⟨held, here⟩
      rw [if_pos (split.mpr (Or.inl held)), if_pos held, if_neg notUndelivered]
      omega
    · by_cases undelivered : (acquisition bound).Undelivered
      · rw [if_pos (split.mpr (Or.inr undelivered)), if_neg held, if_pos undelivered]
        omega
      · rw [if_neg fun slot => (split.mp slot).elim held undelivered, if_neg held, if_neg undelivered]
        omega

/-- **The gate is safe**, after any steps: its slots are within the capacity and its queue within the
limit, every slot is a lease that its caller holds or a grant on its way, nobody waits for a free slot,
slots are given in the order of arrival, and when all callers are done none is left. -/
theorem gate_safe (capacity waiterLimit : Nat) (events : List Event) :
    let gate := run capacity waiterLimit events
    0 ≤ gate.active ∧ gate.active ≤ capacity ∧ gate.waiters.length ≤ waiterLimit ∧
      (∀ id, id ∈ gate.waiters ↔ (gate.acquisition id).waiter = .queued) ∧
      gate.active = countUpTo (fun id => (gate.acquisition id).Held) gate.next +
        countUpTo (fun id => (gate.acquisition id).Undelivered) gate.next ∧
      (gate.active < capacity → ∀ id, (gate.acquisition id).waiter ≠ .queued) ∧
      gate.acquired.Pairwise (· < ·) ∧
      (∀ id ∈ gate.acquired, ∀ other, (gate.acquisition other).waiter = .queued → id < other) ∧
      ((∀ id, id < gate.next → (gate.acquisition id).Finished) → gate.active = 0) ∧
      ∀ id, (gate.acquisition id).release = .releasing → gate.releaseSlot capacity ≠ none := by
  obtain ⟨sound, settled⟩ := run_sound capacity waiterLimit events
  have slots := sound.slots
  rw [slots_split _ sound.ok] at slots
  refine ⟨by omega, sound.within, sound.limit, sound.queue, by omega, fun free id queued => ?_,
    sound.inOrder, fun id member other queued => ?_, fun finished => ?_, fun id releasing => ?_⟩
  · have inside := (sound.queue id).mpr queued
    rw [settled free] at inside
    cases inside
  · exact (sound.before id member).2 other ((sound.queue other).mpr queued)
  · have counted := sound.slots
    rw [countUpTo_eq_zero fun id below => (sound.ok id).finished (finished id below)] at counted
    omega
  · obtain ⟨after, given, -⟩ := releaseRuns_sound sound releasing
    rw [given]
    exact nofun

end Gate

end UniApi.Admission.BoundedGate
