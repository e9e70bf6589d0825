/-
**The adaptive network governor: descriptors kept free.**

A connection attempt is granted while the last sample of the kernel, with what was granted since, leaves
room below the limit and its reserve. A sample may be old, fail half way, or leave the limit or the count
unknown; then it does not restrict anything.

* `sampleLocked_spec`: what a sample may change;
* `step_covered`: the sampled count and the three counters cover the open and the promised sockets;
* `headroom_kept`: pending attempts are those granted and not released, and if the limit and the count
  are known at every admission, the descriptors stay below the limit minus the reserve.
-/

import Mathlib.Algebra.Order.Ring.Int
import UniApi.Lib.PyText
import UniApi.Lib.Raise

namespace UniApi.Admission

open UniApi.Lib

/-! ### Samples -/

/-- What a supplier answers, or the text of what it raises. -/
abbrev Supplied := Except (List CodePoint) (Option ℤ)

/-- What the four suppliers answer in a sample. -/
structure NetworkReading where
  nofile : Supplied
  openFds : Supplied
  ephemeralPorts : Supplied
  ephemeralOccupancy : Supplied

/-- The parameters of a governor. The products with the float ratios are functions. -/
structure NetworkSettings where
  fdReserveMin : ℤ
  /-- `math.ceil(limit * fd_reserve_ratio)`. -/
  ratioReserve : ℤ → ℤ
  /-- `math.floor(ports * ephemeral_port_utilization)`. -/
  usablePorts : ℤ → ℤ
  sampleCache : ℤ

structure NetworkGovernor where
  sampledAt : Option ℤ
  sampleError : Option (List CodePoint)
  nofileSoftLimit : Option ℤ
  openFds : Option ℤ
  ephemeralPorts : Option ℤ
  ephemeralOccupancy : Option ℤ
  pendingAttempts : ℕ
  completedAttemptsSinceSample : ℕ
  inboundAcceptsSinceSample : ℕ
  waitingAttempts : ℕ
  acquiredTotal : ℕ
  blockedTotal : ℕ
  cancelledTotal : ℕ
  /-- `_waiters`: the events of the attempts that wait, by number. -/
  waiters : List ℕ

namespace NetworkGovernor

/-- `__init__`. -/
def fresh : NetworkGovernor where
  sampledAt := none
  sampleError := none
  nofileSoftLimit := none
  openFds := none
  ephemeralPorts := none
  ephemeralOccupancy := none
  pendingAttempts := 0
  completedAttemptsSinceSample := 0
  inboundAcceptsSinceSample := 0
  waitingAttempts := 0
  acquiredTotal := 0
  blockedTotal := 0
  cancelledTotal := 0
  waiters := []

/-- The body of the `try` of `_sample_locked`: what was read before a supplier raised stays. -/
def readSuppliers (reading : NetworkReading) : Raise (List CodePoint) NetworkGovernor Unit := do
  let limit ← Raise.ofExcept reading.nofile
  Raise.modify fun governor => { governor with nofileSoftLimit := limit }
  let count ← Raise.ofExcept reading.openFds
  Raise.modify fun governor => { governor with openFds := count }
  let ports ← Raise.ofExcept reading.ephemeralPorts
  Raise.modify fun governor => { governor with ephemeralPorts := ports }
  let occupancy ← Raise.ofExcept reading.ephemeralOccupancy
  Raise.modify fun governor => { governor with
    ephemeralOccupancy := occupancy
    completedAttemptsSinceSample := 0
    inboundAcceptsSinceSample := 0
    sampleError := none }

/-- `_sample_locked`. -/
def sampleLocked (settings : NetworkSettings) (force : Bool) (now : ℤ) (reading : NetworkReading)
    (governor : NetworkGovernor) : NetworkGovernor :=
  if force = false ∧ governor.sampledAt.any (now - · < settings.sampleCache) then governor
  else
    let sampled := (Raise.tryExcept (readSuppliers reading) fun error =>
      Raise.modify fun governor => { governor with sampleError := some (error.take 512) }) governor
    { sampled.2 with sampledAt := some now }

end NetworkGovernor

/-- `_fd_reserve_locked`, of a limit that is known. -/
def NetworkSettings.fdReserve (settings : NetworkSettings) (limit : ℤ) : ℤ :=
  max (min settings.fdReserveMin (max 1 (limit / 2))) (settings.ratioReserve limit)

namespace NetworkGovernor

section Methods

variable (settings : NetworkSettings) (governor : NetworkGovernor)

/-- The first part of `_headroom_locked`. -/
def fdHeadroom : Option ℤ := do
  let limit ← governor.nofileSoftLimit
  let count ← governor.openFds
  return max 0 (limit - settings.fdReserve limit - count - governor.pendingAttempts -
    governor.completedAttemptsSinceSample - governor.inboundAcceptsSinceSample)

/-- The second part of `_headroom_locked`. -/
def portHeadroom : Option ℤ := do
  let ports ← governor.ephemeralPorts
  let occupancy ← governor.ephemeralOccupancy
  return max 0 (settings.usablePorts ports - occupancy - governor.pendingAttempts -
    governor.completedAttemptsSinceSample)

/-- `_try_reserve_locked`. -/
def tryReserveLocked (now : ℤ) (reading : NetworkReading) : Bool × NetworkGovernor :=
  let sampled := governor.sampleLocked settings false now reading
  if (sampled.fdHeadroom settings).any (· ≤ 0) then (false, sampled)
  else if (sampled.portHeadroom settings).any (· ≤ 0) then (false, sampled)
  else (true, { sampled with
    pendingAttempts := sampled.pendingAttempts + 1
    acquiredTotal := sampled.acquiredTotal + 1 })

/-- `release`. -/
def release : Except String NetworkGovernor :=
  if governor.pendingAttempts = 0 then
    .error "network connection-attempt reservation underflow"
  else .ok { governor with
    pendingAttempts := governor.pendingAttempts - 1
    completedAttemptsSinceSample := governor.completedAttemptsSinceSample + 1 }

/-- `allow_inbound_connection`. -/
def allowInboundConnection (now : ℤ) (reading : NetworkReading) : Bool × NetworkGovernor :=
  let sampled := governor.sampleLocked settings false now reading
  if (sampled.fdHeadroom settings).any (· ≤ 0) then (false, sampled)
  else (true, { sampled with inboundAcceptsSinceSample := sampled.inboundAcceptsSinceSample + 1 })

/-- What `acquire` does to the governor before it waits for the first time. -/
def block (waiter : ℕ) : NetworkGovernor := { governor with
  blockedTotal := governor.blockedTotal + 1
  waitingAttempts := governor.waitingAttempts + 1
  waiters := waiter :: governor.waiters }

/-- The `finally` of `acquire`. -/
def unblock (waiter : ℕ) : NetworkGovernor := { governor with
  waiters := governor.waiters.filter (· ≠ waiter)
  waitingAttempts := governor.waitingAttempts - 1 }

/-- The `except` of `acquire`, and its `finally`. -/
def cancelWaiting (waiter : ℕ) : NetworkGovernor :=
  { governor with cancelledTotal := governor.cancelledTotal + 1 }.unblock waiter

end Methods

/-! ### What a sample changes -/

/-- The counters that a sample leaves alone. -/
structure SameAttempts (before after : NetworkGovernor) : Prop where
  pending : after.pendingAttempts = before.pendingAttempts
  waiting : after.waitingAttempts = before.waitingAttempts
  waiters : after.waiters = before.waiters

/-- **What a sample may change**: the limit is the one it read or the old one, and the count is the one it
read, or the old one with the old counters. -/
theorem sampleLocked_spec (settings : NetworkSettings) (force : Bool) (now : ℤ)
    (reading : NetworkReading) (governor : NetworkGovernor) :
    SameAttempts governor (governor.sampleLocked settings force now reading) ∧
      ((governor.sampleLocked settings force now reading).nofileSoftLimit = governor.nofileSoftLimit ∨
        reading.nofile = .ok (governor.sampleLocked settings force now reading).nofileSoftLimit) ∧
      ((governor.sampleLocked settings force now reading).openFds = governor.openFds ∧
          (governor.sampleLocked settings force now reading).completedAttemptsSinceSample =
            governor.completedAttemptsSinceSample ∧
          (governor.sampleLocked settings force now reading).inboundAcceptsSinceSample =
            governor.inboundAcceptsSinceSample ∨
        reading.openFds = .ok (governor.sampleLocked settings force now reading).openFds) := by
  unfold sampleLocked
  split
  · exact ⟨⟨rfl, rfl, rfl⟩, .inl rfl, .inl ⟨rfl, rfl, rfl⟩⟩
  · obtain ⟨nofile, openFds, ports, occupancy⟩ := reading
    cases nofile with
    | error error => exact ⟨⟨rfl, rfl, rfl⟩, .inl rfl, .inl ⟨rfl, rfl, rfl⟩⟩
    | ok limit =>
      cases openFds with
      | error error => exact ⟨⟨rfl, rfl, rfl⟩, .inr rfl, .inl ⟨rfl, rfl, rfl⟩⟩
      | ok count =>
        cases ports with
        | error error => exact ⟨⟨rfl, rfl, rfl⟩, .inr rfl, .inr rfl⟩
        | ok ports =>
          cases occupancy with
          | error error => exact ⟨⟨rfl, rfl, rfl⟩, .inr rfl, .inr rfl⟩
          | ok occupancy => exact ⟨⟨rfl, rfl, rfl⟩, .inr rfl, .inr rfl⟩

end NetworkGovernor

/-! ### A governor and its sockets -/

/-- A governor, the attempts whose lease is not released (each with whether its socket is opened), and
the sockets: those of attempts and allowed ones, accepted ones not yet checked, and refused ones. -/
structure NetworkWorld where
  governor : NetworkGovernor
  leases : List Bool
  granted : ℕ
  released : ℕ
  sockets : ℕ
  unchecked : ℕ
  refused : ℕ

/-- Nothing has happened. -/
def NetworkWorld.start : NetworkWorld := ⟨.fresh, [], 0, 0, 0, 0, 0⟩

/-- The clock and the suppliers' answers at a call. -/
structure Sampling where
  now : ℤ
  reading : NetworkReading

/-- What may happen. A lease is named by its place in the list. -/
inductive NetworkEvent where
  | tryAcquire (sampling : Sampling)
  /-- `acquire` up to its first wait. -/
  | acquire (waiter : ℕ) (sampling : Sampling)
  /-- One round of the loop of a waiting `acquire`. -/
  | retry (waiter : ℕ) (sampling : Sampling)
  | abort (waiter : ℕ)
  | cancel (waiter : ℕ)
  | openSocket (lease : ℕ)
  | release (lease : ℕ)
  | accept
  | check (sampling : Sampling)
  | closeSocket
  | closeUnchecked
  | closeRefused
  | snapshot (force : Bool) (sampling : Sampling)

namespace NetworkWorld

/-- The attempts that may still open a socket. -/
def unopened (world : NetworkWorld) : ℕ := world.leases.count false

/-- All descriptors, with those that are no sockets. -/
def descriptors (base : ℤ) (world : NetworkWorld) : ℤ :=
  base + world.sockets + world.unchecked + world.refused

/-- The descriptors open or still to be opened, apart from the accepted sockets that are not yet checked
or not yet closed. -/
def promised (base : ℤ) (world : NetworkWorld) : ℤ := base + world.sockets + world.unopened

variable (settings : NetworkSettings) (world : NetworkWorld)

/-- A lease is granted. -/
def grant (governor : NetworkGovernor) : NetworkWorld := { world with
  governor := governor
  leases := false :: world.leases
  granted := world.granted + 1 }

/-- One event. An event that cannot happen changes nothing. -/
def step : NetworkEvent → NetworkWorld
  | .tryAcquire sampling =>
    match world.governor.tryReserveLocked settings sampling.now sampling.reading with
    | (true, governor) => world.grant governor
    | (false, governor) => { world with governor := governor }
  | .acquire waiter sampling =>
    match world.governor.tryReserveLocked settings sampling.now sampling.reading with
    | (true, governor) => world.grant governor
    | (false, governor) => { world with governor := governor.block waiter }
  | .retry waiter sampling =>
    if waiter ∈ world.governor.waiters then
      match world.governor.tryReserveLocked settings sampling.now sampling.reading with
      | (true, governor) => world.grant (governor.unblock waiter)
      | (false, governor) => { world with governor := governor }
    else world
  | .abort waiter =>
    if waiter ∈ world.governor.waiters then { world with governor := world.governor.unblock waiter }
    else world
  | .cancel waiter =>
    if waiter ∈ world.governor.waiters then
      { world with governor := world.governor.cancelWaiting waiter }
    else world
  | .openSocket lease =>
    match world.leases[lease]? with
    | some false => { world with leases := world.leases.set lease true, sockets := world.sockets + 1 }
    | _ => world
  | .release lease =>
    if lease < world.leases.length then
      match world.governor.release with
      | .ok governor => { world with
        governor := governor
        leases := world.leases.eraseIdx lease
        released := world.released + 1 }
      | .error _ => world
    else world
  | .accept => { world with unchecked := world.unchecked + 1 }
  | .check sampling =>
    if 0 < world.unchecked then
      match world.governor.allowInboundConnection settings sampling.now sampling.reading with
      | (true, governor) => { world with
        governor := governor
        unchecked := world.unchecked - 1
        sockets := world.sockets + 1 }
      | (false, governor) => { world with
        governor := governor
        unchecked := world.unchecked - 1
        refused := world.refused + 1 }
    else world
  | .closeSocket => { world with sockets := world.sockets - 1 }
  | .closeUnchecked => { world with unchecked := world.unchecked - 1 }
  | .closeRefused => { world with refused := world.refused - 1 }
  | .snapshot force sampling =>
    { world with governor := world.governor.sampleLocked settings force sampling.now sampling.reading }

/-- The sampling of an event. -/
def sampling : NetworkEvent → Option Sampling
  | .tryAcquire sampling | .acquire _ sampling | .retry _ sampling | .check sampling
  | .snapshot _ sampling => some sampling
  | _ => none

/-- **Suppliers that report true values**: the limit, and the descriptors open now. They may also raise,
or know nothing. -/
def Truthful (base limit : ℤ) (event : NetworkEvent) : Prop :=
  ∀ sampling, NetworkWorld.sampling event = some sampling →
    (∀ value, sampling.reading.nofile = .ok (some value) → value = limit) ∧
      ∀ value, sampling.reading.openFds = .ok (some value) → value = world.descriptors base

theorem truthful_of_unsampled {base limit : ℤ} {event : NetworkEvent}
    (unsampled : NetworkWorld.sampling event = none) : world.Truthful base limit event := by
  intro sampling sampled
  rw [unsampled] at sampled
  cases sampled

/-- An event that grants a lease or allows an accepted socket does so with a limit and a count that are
known. -/
def AdmitsKnown (event : NetworkEvent) : Prop :=
  let known := fun sampling : Sampling =>
    let sampled := world.governor.sampleLocked settings false sampling.now sampling.reading
    sampled.nofileSoftLimit.isSome = true ∧ sampled.openFds.isSome = true
  match event with
  | .tryAcquire sampling | .acquire _ sampling | .retry _ sampling =>
    (world.governor.tryReserveLocked settings sampling.now sampling.reading).1 = true → known sampling
  | .check sampling =>
    (world.governor.allowInboundConnection settings sampling.now sampling.reading).1 = true →
      known sampling
  | _ => True

/-- The world after a sequence of events. -/
def run (events : List NetworkEvent) : NetworkWorld := events.foldl (step settings) world

/-- A property of every event of a sequence, in the world before it. -/
def Along (property : NetworkWorld → NetworkEvent → Prop) : NetworkWorld → List NetworkEvent → Prop
  | _, [] => True
  | world, event :: rest => property world event ∧ Along property (step settings world event) rest

/-! ### What covers the sockets -/

/-- The sampled count and the three counters cover the sockets open and to be opened. -/
structure Covered (base limit : ℤ) : Prop where
  pending : world.governor.pendingAttempts = world.leases.length
  granted : world.granted = world.released + world.leases.length
  limit : ∀ value, world.governor.nofileSoftLimit = some value → value = limit
  count : ∀ value, world.governor.openFds = some value → world.promised base ≤
    value + world.governor.pendingAttempts + world.governor.completedAttemptsSinceSample +
      world.governor.inboundAcceptsSinceSample

variable {settings world} {base limit : ℤ}

/-- **A sample keeps the sockets covered**: a count that is read covers them all. -/
theorem Covered.sample (covered : world.Covered base limit) {sampling : Sampling} (force : Bool)
    (trueLimit : ∀ value, sampling.reading.nofile = .ok (some value) → value = limit)
    (trueCount : ∀ value, sampling.reading.openFds = .ok (some value) → value = world.descriptors base) :
    ({ world with governor :=
      world.governor.sampleLocked settings force sampling.now sampling.reading } : NetworkWorld).Covered
        base limit := by
  obtain ⟨same, isLimit, isCount⟩ := NetworkGovernor.sampleLocked_spec settings force sampling.now
    sampling.reading world.governor
  have few : world.unopened ≤ world.leases.length := List.count_le_length
  have pending := covered.pending
  refine ⟨same.pending.trans pending, covered.granted, fun value found => ?_, fun value found => ?_⟩
  · rcases isLimit with isLimit | isLimit
    · exact covered.limit value (isLimit.symm.trans found)
    · exact trueLimit value (found ▸ isLimit)
  · dsimp only at found ⊢
    rw [same.pending]
    rcases isCount with ⟨isCount, completed, inbound⟩ | isCount
    · rw [completed, inbound]
      exact covered.count value (isCount.symm.trans found)
    · have counted := trueCount value (found ▸ isCount)
      rw [counted]
      unfold promised descriptors
      dsimp only [unopened] at few ⊢
      omega

theorem Covered.grant (covered : world.Covered base limit) :
    (world.grant { world.governor with
      pendingAttempts := world.governor.pendingAttempts + 1
      acquiredTotal := world.governor.acquiredTotal + 1 }).Covered base limit := by
  refine ⟨?_, ?_, covered.limit, fun value found => ?_⟩
  · rw [NetworkWorld.grant, List.length_cons, covered.pending]
  · rw [NetworkWorld.grant, List.length_cons, covered.granted]
    exact Nat.add_assoc _ _ _
  · have before := covered.count value found
    unfold promised NetworkWorld.grant unopened at *
    dsimp only at *
    rw [List.count_cons_self]
    omega

/-- Only the counters and the waiters that matter to nobody else are changed. -/
theorem Covered.congr (covered : world.Covered base limit) {governor : NetworkGovernor}
    (pending : governor.pendingAttempts = world.governor.pendingAttempts)
    (isLimit : governor.nofileSoftLimit = world.governor.nofileSoftLimit)
    (isCount : governor.openFds = world.governor.openFds)
    (completed : governor.completedAttemptsSinceSample = world.governor.completedAttemptsSinceSample)
    (inbound : governor.inboundAcceptsSinceSample = world.governor.inboundAcceptsSinceSample) :
    ({ world with governor := governor } : NetworkWorld).Covered base limit where
  pending := pending.trans covered.pending
  granted := covered.granted
  limit value found := covered.limit value (isLimit.symm.trans found)
  count value found := by
    dsimp only
    rw [pending, completed, inbound]
    exact covered.count value (isCount.symm.trans found)

/-- What a reservation does: it samples, and it grants or refuses. -/
theorem tryReserveLocked_cases (governor : NetworkGovernor) (now : ℤ) (reading : NetworkReading) :
    let sampled := governor.sampleLocked settings false now reading
    governor.tryReserveLocked settings now reading = (false, sampled) ∨
      (sampled.fdHeadroom settings).any (· ≤ 0) = false ∧
        governor.tryReserveLocked settings now reading = (true, { sampled with
          pendingAttempts := sampled.pendingAttempts + 1
          acquiredTotal := sampled.acquiredTotal + 1 }) := by
  dsimp only
  unfold NetworkGovernor.tryReserveLocked
  dsimp only
  split
  · exact .inl rfl
  · rename_i room
    split
    · exact .inl rfl
    · exact .inr ⟨Bool.eq_false_iff.mpr room, rfl⟩

/-- What a check of an accepted socket does: it samples, and it allows or refuses. -/
theorem allowInboundConnection_cases (governor : NetworkGovernor) (now : ℤ) (reading : NetworkReading) :
    let sampled := governor.sampleLocked settings false now reading
    governor.allowInboundConnection settings now reading = (false, sampled) ∨
      (sampled.fdHeadroom settings).any (· ≤ 0) = false ∧
        governor.allowInboundConnection settings now reading = (true, { sampled with
          inboundAcceptsSinceSample := sampled.inboundAcceptsSinceSample + 1 }) := by
  dsimp only
  unfold NetworkGovernor.allowInboundConnection
  dsimp only
  split
  · exact .inl rfl
  · rename_i room
    exact .inr ⟨Bool.eq_false_iff.mpr room, rfl⟩

/-- With a limit and a count that are known, headroom is room for one more descriptor. -/
theorem Covered.room (covered : world.Covered base limit)
    (knownLimit : world.governor.nofileSoftLimit.isSome = true)
    (knownCount : world.governor.openFds.isSome = true)
    (headroom : (world.governor.fdHeadroom settings).any (· ≤ 0) = false) :
    world.promised base + 1 ≤ limit - settings.fdReserve limit := by
  obtain ⟨value, isLimit⟩ := Option.isSome_iff_exists.mp knownLimit
  obtain ⟨count, isCount⟩ := Option.isSome_iff_exists.mp knownCount
  have cover := covered.count count isCount
  have same := covered.limit value isLimit
  subst same
  rw [NetworkGovernor.fdHeadroom, isLimit, isCount] at headroom
  dsimp only [Option.bind_eq_bind, Option.bind_some, Option.pure_def] at headroom
  rw [Option.any_some, decide_eq_false_iff_not] at headroom
  omega

theorem count_set_opened {leases : List Bool} {lease : ℕ} (unopened : leases[lease]? = some false) :
    (leases.set lease true).count false + 1 = leases.count false := by
  obtain ⟨inside, isFalse⟩ := List.getElem?_eq_some_iff.mp unopened
  have positive : 0 < leases.count false := List.count_pos_iff.mpr (isFalse ▸ List.getElem_mem inside)
  rw [List.count_set inside, isFalse, if_pos (beq_self_eq_true false), if_neg (by decide), Nat.add_zero,
    Nat.sub_add_cancel positive]

/-- **Every event keeps the sockets covered.** -/
theorem step_covered (covered : world.Covered base limit) {event : NetworkEvent}
    (truthful : world.Truthful base limit event) : (world.step settings event).Covered base limit := by
  have sampled : ∀ (force : Bool) (sampling : Sampling), NetworkWorld.sampling event = some sampling →
      ({ world with governor :=
        world.governor.sampleLocked settings force sampling.now sampling.reading } :
          NetworkWorld).Covered base limit :=
    fun force sampling isSampling => covered.sample force (truthful sampling isSampling).1
      (truthful sampling isSampling).2
  cases event with
  | tryAcquire sampling =>
    have here := sampled false sampling rfl
    rw [step]
    rcases tryReserveLocked_cases world.governor sampling.now sampling.reading with refused | ⟨-, granted⟩
    · rw [refused]
      exact here
    · rw [granted]
      exact here.grant
  | acquire waiter sampling =>
    have here := sampled false sampling rfl
    rw [step]
    rcases tryReserveLocked_cases world.governor sampling.now sampling.reading with refused | ⟨-, granted⟩
    · rw [refused]
      exact here.congr rfl rfl rfl rfl rfl
    · rw [granted]
      exact here.grant
  | retry waiter sampling =>
    have here := sampled false sampling rfl
    rw [step]
    split
    · rcases tryReserveLocked_cases world.governor sampling.now sampling.reading with refused | ⟨-, granted⟩
      · rw [refused]
        exact here
      · rw [granted]
        exact here.grant.congr rfl rfl rfl rfl rfl
    · exact covered
  | abort waiter =>
    rw [step]
    split
    · exact covered.congr rfl rfl rfl rfl rfl
    · exact covered
  | cancel waiter =>
    rw [step]
    split
    · exact covered.congr rfl rfl rfl rfl rfl
    · exact covered
  | openSocket lease =>
    rw [step]
    split
    · rename_i isUnopened
      have pending := covered.pending
      have fewer := count_set_opened isUnopened
      refine ⟨?_, ?_, covered.limit, fun value found => ?_⟩
      · rw [List.length_set]
        exact pending
      · rw [List.length_set]
        exact covered.granted
      · have before := covered.count value found
        unfold promised unopened at before ⊢
        dsimp only
        push_cast
        omega
    · exact covered
  | release lease =>
    have pending := covered.pending
    have granted := covered.granted
    rw [step]
    split
    · rename_i inside
      have nonzero : world.governor.pendingAttempts ≠ 0 := by omega
      rw [NetworkGovernor.release, if_neg nonzero]
      have fewer := (List.eraseIdx_sublist world.leases lease).count_le false
      refine ⟨?_, ?_, covered.limit, fun value found => ?_⟩
      · dsimp only
        rw [List.length_eraseIdx_of_lt inside, pending]
      · dsimp only
        rw [List.length_eraseIdx_of_lt inside]
        omega
      · have before := covered.count value found
        unfold promised unopened at before ⊢
        dsimp only
        push_cast
        omega
    · exact covered
  | accept => exact ⟨covered.pending, covered.granted, covered.limit, covered.count⟩
  | check sampling =>
    have here := sampled false sampling rfl
    rw [step]
    split
    · rcases allowInboundConnection_cases world.governor sampling.now sampling.reading with
        refused | ⟨-, allowed⟩
      · rw [refused]
        exact ⟨here.pending, here.granted, here.limit, here.count⟩
      · rw [allowed]
        refine ⟨here.pending, here.granted, here.limit, fun value found => ?_⟩
        have before := here.count value found
        unfold promised unopened at before ⊢
        dsimp only at before ⊢
        push_cast
        omega
    · exact covered
  | closeSocket =>
    refine ⟨covered.pending, covered.granted, covered.limit, fun value found => ?_⟩
    have before := covered.count value found
    rw [step]
    unfold promised unopened at *
    dsimp only at *
    omega
  | closeUnchecked => exact ⟨covered.pending, covered.granted, covered.limit, covered.count⟩
  | closeRefused => exact ⟨covered.pending, covered.granted, covered.limit, covered.count⟩
  | snapshot force sampling => exact sampled force sampling rfl

theorem promised_grant (base : ℤ) (world : NetworkWorld) (governor : NetworkGovernor) :
    (world.grant governor).promised base = world.promised base + 1 := by
  unfold promised grant unopened
  dsimp only
  rw [List.count_cons_self]
  push_cast
  omega

/-- **A step keeps the descriptors below the reserve** if it admits with a limit and a count that are
known. -/
theorem step_bounded (covered : world.Covered base limit) {event : NetworkEvent}
    (truthful : world.Truthful base limit event) (known : world.AdmitsKnown settings event)
    (bounded : world.promised base ≤ limit - settings.fdReserve limit) :
    (world.step settings event).promised base ≤ limit - settings.fdReserve limit := by
  have sampled : ∀ sampling : Sampling, NetworkWorld.sampling event = some sampling →
      ({ world with governor :=
        world.governor.sampleLocked settings false sampling.now sampling.reading } :
          NetworkWorld).Covered base limit :=
    fun sampling isSampling => covered.sample false (truthful sampling isSampling).1
      (truthful sampling isSampling).2
  cases event with
  | tryAcquire sampling =>
    rw [step]
    rcases tryReserveLocked_cases world.governor sampling.now sampling.reading with
      refused | ⟨headroom, granted⟩
    · rw [refused]
      exact bounded
    · obtain ⟨knownLimit, knownCount⟩ := known (congrArg Prod.fst granted)
      rw [granted]
      exact (promised_grant base world _).trans_le ((sampled sampling rfl).room knownLimit knownCount headroom)
  | acquire waiter sampling =>
    rw [step]
    rcases tryReserveLocked_cases world.governor sampling.now sampling.reading with
      refused | ⟨headroom, granted⟩
    · rw [refused]
      exact bounded
    · obtain ⟨knownLimit, knownCount⟩ := known (congrArg Prod.fst granted)
      rw [granted]
      exact (promised_grant base world _).trans_le ((sampled sampling rfl).room knownLimit knownCount headroom)
  | retry waiter sampling =>
    rw [step]
    split
    · rcases tryReserveLocked_cases world.governor sampling.now sampling.reading with
        refused | ⟨headroom, granted⟩
      · rw [refused]
        exact bounded
      · obtain ⟨knownLimit, knownCount⟩ := known (congrArg Prod.fst granted)
        rw [granted]
        exact (promised_grant base world _).trans_le
          ((sampled sampling rfl).room knownLimit knownCount headroom)
    · exact bounded
  | abort waiter =>
    rw [step]
    split <;> exact bounded
  | cancel waiter =>
    rw [step]
    split <;> exact bounded
  | openSocket lease =>
    rw [step]
    split
    · rename_i isUnopened
      refine le_trans (le_of_eq ?_) bounded
      have fewer := count_set_opened isUnopened
      unfold promised unopened
      dsimp only
      push_cast
      omega
    · exact bounded
  | release lease =>
    rw [step]
    split
    · split
      · have fewer := (List.eraseIdx_sublist world.leases lease).count_le false
        refine le_trans ?_ bounded
        unfold promised unopened
        dsimp only
        omega
      · exact bounded
    · exact bounded
  | check sampling =>
    rw [step]
    split
    · rcases allowInboundConnection_cases world.governor sampling.now sampling.reading with
        refused | ⟨headroom, allowed⟩
      · rw [refused]
        exact bounded
      · obtain ⟨knownLimit, knownCount⟩ := known (congrArg Prod.fst allowed)
        rw [allowed]
        refine le_trans (le_of_eq ?_) ((sampled sampling rfl).room knownLimit knownCount headroom)
        unfold promised unopened
        dsimp only
        push_cast
        omega
    · exact bounded
  | closeSocket =>
    refine le_trans ?_ bounded
    rw [step]
    unfold promised unopened
    dsimp only
    omega
  | accept | closeUnchecked | closeRefused | snapshot => exact bounded

theorem run_covered (covered : world.Covered base limit) (events : List NetworkEvent)
    (truthful : Along settings (Truthful · base limit) world events) :
    (world.run settings events).Covered base limit := by
  induction events generalizing world with
  | nil => exact covered
  | cons event rest ih => exact ih (step_covered covered truthful.1) truthful.2

/-- The descriptors stay below the reserve in every run that admits with what is known. -/
theorem run_bounded (covered : world.Covered base limit)
    (bounded : world.promised base ≤ limit - settings.fdReserve limit) (events : List NetworkEvent)
    (truthful : Along settings (Truthful · base limit) world events)
    (known : Along settings (AdmitsKnown settings) world events) :
    (world.run settings events).promised base ≤ limit - settings.fdReserve limit := by
  induction events generalizing world with
  | nil => exact bounded
  | cons event rest ih =>
    exact ih (step_covered covered truthful.1) (step_bounded covered truthful.1 known.1 bounded)
      truthful.2 known.2

theorem start_covered (base limit : ℤ) : start.Covered base limit where
  pending := rfl
  granted := rfl
  limit value found := by cases found
  count value found := by cases found

/-- **Descriptor head-room.** With suppliers that report true values when they report any, pending
attempts are those granted and not released, in every run; and in every run that admits only with a limit
and a count that are known, the descriptors open or still to be opened stay below the limit minus the
reserve. -/
theorem headroom_kept (settings : NetworkSettings) (base limit : ℤ)
    (room : base < limit - settings.fdReserve limit) (events : List NetworkEvent)
    (truthful : Along settings (Truthful · base limit) start events) :
    (start.run settings events).governor.pendingAttempts + (start.run settings events).released =
        (start.run settings events).granted ∧
      (Along settings (AdmitsKnown settings) start events →
        (start.run settings events).promised base ≤ limit - settings.fdReserve limit) := by
  have covered := run_covered (start_covered base limit) events truthful
  constructor
  · rw [covered.pending, covered.granted, Nat.add_comm]
  · intro known
    refine run_bounded (start_covered base limit) ?_ events truthful known
    have nothing : start.promised base = base := by
      unfold promised start unopened
      simp
    rw [nothing]
    exact room.le

/-- A reserve of two descriptors or a twentieth of the limit, and four fifths of the ports. -/
def smallSettings : NetworkSettings where
  fdReserveMin := 2
  ratioReserve := fun limit => -(-limit / 20)
  usablePorts := fun ports => ports * 4 / 5
  sampleCache := 50

/-- A sample that reads a limit of ten and a count. -/
def sampleOf (now count : ℤ) : Sampling :=
  ⟨now, ⟨.ok (some 10), .ok (some count), .ok none, .ok none⟩⟩

/-- An attempt that opens its socket, and an accepted socket for which there is no room. -/
def attemptAndAccept : List NetworkEvent :=
  [.tryAcquire (sampleOf 0 7), .openSocket 0, .release 0, .accept, .check (sampleOf 10 9), .closeRefused]

theorem attemptAndAccept_truthful :
    Along smallSettings (Truthful · 7 10) start attemptAndAccept := by
  refine ⟨?_, truthful_of_unsampled _ rfl, truthful_of_unsampled _ rfl, truthful_of_unsampled _ rfl, ?_,
    truthful_of_unsampled _ rfl, trivial⟩ <;>
  · rintro sampling ⟨⟩
    exact ⟨fun value found => by cases found; rfl, fun value found => by cases found; rfl⟩

/-- Of ten descriptors seven are no sockets and two are kept free: there is room for one more. -/
theorem attemptAndAccept_kept :
    (start.run smallSettings attemptAndAccept).governor.pendingAttempts +
          (start.run smallSettings attemptAndAccept).released =
        (start.run smallSettings attemptAndAccept).granted ∧
      (start.run smallSettings attemptAndAccept).promised 7 ≤ 10 - smallSettings.fdReserve 10 := by
  have kept := headroom_kept smallSettings 7 10 (by decide) attemptAndAccept attemptAndAccept_truthful
  refine ⟨kept.1, kept.2 ⟨fun _ => ⟨rfl, rfl⟩, trivial, trivial, trivial, fun _ => ⟨rfl, rfl⟩, trivial, trivial⟩⟩

/-- A sample in which the descriptors cannot be counted. -/
def uncounted : Sampling := ⟨0, ⟨.ok (some 10), .error [], .ok none, .ok none⟩⟩

/-- **While the count is unknown every attempt is granted**: here two with room for one. -/
theorem uncounted_attempts_granted : (7 : ℤ) < 10 - smallSettings.fdReserve 10 ∧
    Along smallSettings (Truthful · 7 10) start [.tryAcquire uncounted, .tryAcquire uncounted] ∧
      ¬ (start.run smallSettings [.tryAcquire uncounted, .tryAcquire uncounted]).promised 7 ≤
        10 - smallSettings.fdReserve 10 := by
  refine ⟨by decide, ⟨?_, ?_, trivial⟩, by decide⟩ <;>
  · rintro sampling ⟨⟩
    exact ⟨fun value found => by cases found; rfl, fun value found => by cases found⟩

end NetworkWorld

end UniApi.Admission
