/-
**Runs of the memory governor.**

Callers reserve, wait and release in any order, and every refresh may find another sample, no sample
at all, or a source that raises. A run keeps beside the governor what has been granted and released.

* `capacity`, `baseCapacity`: the capacity of `_limits_locked`, with what is reserved and without;
* `MemoryRun.step`: one section of a call under the lock;
* `Ledger`: what is reserved is what has been granted less what has been released;
* `memory_run_sound`: every run keeps the ledger, and every grant fits the capacity of its sample.
-/

import Mathlib.Algebra.BigOperators.Group.List.Basic
import Mathlib.Data.List.Nodup
import UniApi.Admission.MemoryGovernor
import UniApi.Lib.PyText

namespace UniApi.Admission

open UniApi.Lib

/-! ### Counters with one entry for each category -/

namespace Counter

/-- The categories of a counter are different. -/
def Distinct (counter : Counter) : Prop := (counter.map Prod.fst).Nodup

theorem keys_add (counter : Counter) (category : String) (amount : Int) :
    (counter.add category amount).map Prod.fst =
      if category ∈ counter.map Prod.fst then counter.map Prod.fst
      else counter.map Prod.fst ++ [category] := by
  induction counter with
  | nil => rfl
  | cons entry rest ih =>
    obtain ⟨name, value⟩ := entry
    rw [add]
    by_cases same : name = category
    · rw [if_pos same, if_pos (by simp [same])]
      rfl
    · rw [if_neg same, List.map_cons, ih, List.map_cons]
      by_cases there : category ∈ rest.map Prod.fst
      · rw [if_pos there, if_pos (List.mem_cons_of_mem _ there)]
      · have nowhere : category ∉ name :: rest.map Prod.fst := by
          rintro (_ | ⟨_, inRest⟩)
          · exact same rfl
          · exact there inRest
        rw [if_neg there, if_neg nowhere]
        rfl

theorem distinct_add {counter : Counter} (distinct : counter.Distinct) (category : String)
    (amount : Int) : (counter.add category amount).Distinct := by
  rw [Distinct, keys_add]
  split
  · exact distinct
  · rename_i nowhere
    exact List.nodup_append.mpr ⟨distinct, List.nodup_singleton _, fun name there other isOther =>
      fun same => nowhere (List.mem_singleton.mp isOther ▸ same ▸ there)⟩

theorem distinct_erase {counter : Counter} (distinct : counter.Distinct) (category : String) :
    (counter.erase category).Distinct :=
  distinct.sublist (List.filter_sublist.map _)

theorem total_add (counter : Counter) (category : String) (amount : Int) :
    (counter.add category amount).total = counter.total + amount := by
  induction counter with
  | nil => simp [add, total]
  | cons entry rest ih =>
    obtain ⟨name, value⟩ := entry
    unfold total at ih ⊢
    rw [add]
    split
    · simp only [List.map_cons, List.sum_cons]
      omega
    · simp only [List.map_cons, List.sum_cons, ih]
      omega

theorem erase_of_notMem {counter : Counter} {category : String}
    (nowhere : category ∉ counter.map Prod.fst) : counter.erase category = counter := by
  refine List.filter_eq_self.mpr fun entry there => ?_
  refine decide_eq_true fun same => nowhere ?_
  exact List.mem_map.mpr ⟨entry, there, same⟩

theorem total_erase {counter : Counter} (distinct : counter.Distinct) (category : String) :
    (counter.erase category).total = counter.total - counter.get category := by
  induction counter with
  | nil => rfl
  | cons entry rest ih =>
    obtain ⟨name, value⟩ := entry
    obtain ⟨apart, later⟩ := List.nodup_cons.mp distinct
    by_cases same : name = category
    · have dropped : Counter.erase ((name, value) :: rest) category = Counter.erase rest category :=
        List.filter_cons_of_neg (by simp [same])
      rw [dropped, erase_of_notMem (same ▸ apart), get, if_pos same]
      simp only [total, List.map_cons, List.sum_cons]
      omega
    · have kept : Counter.erase ((name, value) :: rest) category =
          (name, value) :: Counter.erase rest category := List.filter_cons_of_pos (by simp [same])
      have rest' := ih later
      unfold total at rest' ⊢
      rw [kept, get, if_neg same, List.map_cons, List.sum_cons, rest', List.map_cons, List.sum_cons]
      omega

end Counter

/-! ### The capacity -/

namespace MemoryGovernor

/-- The capacity of `_limits_locked`. -/
def capacity (governor : MemoryGovernor) (sample : MemorySample) : Int :=
  let reserved := governor.reserved.total
  let capacity :=
    match governor.softLimit sample, sample.currentBytes with
    | some soft, some current => max reserved (soft - current)
    | _, _ => max reserved governor.fallbackBudgetBytes
  if governor.sampleError then max reserved (min capacity governor.fallbackBudgetBytes) else
    capacity

theorem available_eq (governor : MemoryGovernor) (sample : MemorySample) :
    governor.available sample = max 0 (governor.capacity sample - governor.reserved.total) := rfl

/-- What a sample leaves: the soft limit without the usage, or the fallback budget where one of
the two is unknown. -/
def freeBytes (governor : MemoryGovernor) (sample : MemorySample) : Int :=
  match governor.softLimit sample, sample.currentBytes with
  | some soft, some current => soft - current
  | _, _ => governor.fallbackBudgetBytes

/-- **The capacity without what is reserved**, which is no more than the fallback budget where the
last sampling has failed. -/
def baseCapacity (governor : MemoryGovernor) (sample : MemorySample) (failed : Bool) : Int :=
  if failed then min (governor.freeBytes sample) governor.fallbackBudgetBytes
  else governor.freeBytes sample

theorem capacity_eq (governor : MemoryGovernor) (sample : MemorySample) :
    governor.capacity sample =
      max governor.reserved.total (governor.baseCapacity sample governor.sampleError) := by
  unfold capacity baseCapacity freeBytes
  dsimp only
  cases governor.softLimit sample <;> cases sample.currentBytes <;>
    cases governor.sampleError <;> simp only [if_true, Bool.false_eq_true, if_false] <;> omega

/-- The guard of `_limits_locked`. -/
def guard (governor : MemoryGovernor) (sample : MemorySample) : Int :=
  match governor.configuredSoftLimitBytes, effectiveLimit sample with
  | some configured, some limit =>
    max 0 ((if limit = 0 then min configured limit else limit) - min configured limit)
  | some _, none => 0
  | none, some limit => max (min governor.guardBytes (limit / 2)) (governor.ratioGuard limit)
  | none, none => governor.guardBytes

/-! ### Calls -/

/-- `_refresh_sample_locked(force=True)`. -/
def refreshForced (governor : MemoryGovernor) : MemorySample × MemoryGovernor :=
  let reading := governor.readings governor.refreshes
  let governor := { governor with refreshes := governor.refreshes + 1 }
  match reading.source, governor.sample with
  | some sample, _ => (sample, { governor with sample := some sample, sampleError := false })
  | none, some sample => (sample, { governor with sampleError := true })
  | none, none =>
    let unavailable : MemorySample := ⟨none, none, none⟩
    (unavailable, { governor with sample := some unavailable, sampleError := true })

def refresh (force : Bool) (governor : MemoryGovernor) : MemorySample × MemoryGovernor :=
  if force then governor.refreshForced else governor.refreshSample

/-- Whether a refresh asks the source, and if it does, whether that fails. -/
def attempt (force : Bool) (governor : MemoryGovernor) : Option Bool :=
  let reading := governor.readings governor.refreshes
  if !force && governor.sample.isSome && reading.cacheFresh then none
  else some reading.source.isNone

/-- The facts of one decision. -/
structure ReservationDecision where
  allowed : Bool
  category : String
  requestedBytes : Int
  reservedBeforeBytes : Int
  projectedReservedBytes : Int
  reservedAfterBytes : Int
  currentBytes : Option Int
  limitBytes : Option Int
  highBytes : Option Int
  softLimitBytes : Option Int
  guardBytes : Int
  capacityBytes : Int
  availableBeforeBytes : Int
  availableAfterBytes : Int
  sampleError : Bool

/-- `str.strip`, and `"unknown"` for what is empty. -/
def normalizedCategory (category : String) : String :=
  let named := if category = "" then "unknown" else category
  let space (letter : Char) : Bool := PyText.isSpace letter.toNat
  let stripped := ((named.toList.dropWhile space).reverse.dropWhile space).reverse
  if stripped.isEmpty then "unknown" else String.ofList stripped

/-- What `reserve_nowait_decision` answers, once the sample is there. -/
def decisionOf (governor : MemoryGovernor) (sample : MemorySample) (category : String)
    (size : Int) : ReservationDecision :=
  let reservedBefore := governor.reserved.total
  let availableBefore := governor.available sample
  let allowed := size ≤ availableBefore
  { allowed := allowed
    category := category
    requestedBytes := size
    reservedBeforeBytes := reservedBefore
    projectedReservedBytes := reservedBefore + size
    reservedAfterBytes := if allowed then reservedBefore + size else reservedBefore
    currentBytes := sample.currentBytes
    limitBytes := sample.limitBytes
    highBytes := sample.highBytes
    softLimitBytes := governor.softLimit sample
    guardBytes := governor.guard sample
    capacityBytes := governor.capacity sample
    availableBeforeBytes := availableBefore
    availableAfterBytes := max 0 (if allowed then availableBefore - size else availableBefore)
    sampleError := governor.sampleError }

/-- `_try_reserve_locked`, which does not record a rejection. -/
def tryReserve (governor : MemoryGovernor) (category : String) (size : Int) : Bool ×
    MemoryGovernor :=
  let (sample, governor) := governor.refreshSample
  if governor.available sample < size then (false, governor)
  else
    let reserved := governor.reserved.add category size
    (true, { governor with
      reserved := reserved
      peakReservedBytes := max governor.peakReservedBytes reserved.total })

end MemoryGovernor

/-- A reservation that has been granted, and what it was decided from. -/
structure Grant where
  category : String
  size : Int
  governor : MemoryGovernor
  sample : MemorySample
  /-- Whether the last attempt to sample had failed. -/
  failed : Bool

/-- A `reserve` that waits. -/
structure Waiting where
  task : ℕ
  category : String
  size : Int

/-- The governor, the calls that wait, and what has happened so far. -/
structure MemoryRun where
  governor : MemoryGovernor
  waiting : List Waiting := []
  /-- Whether the last attempt to sample has failed. -/
  failed : Bool := false
  grants : List Grant := []
  releases : List (String × Int) := []
  /-- The available bytes of decisions and snapshots. -/
  reported : List Int := []

inductive MemoryCall where
  | reserveNowait (category : String) (size : Int)
  | reserve (task : ℕ) (category : String) (size : Int) (timeoutPositive : Bool)
  /-- A `reserve` that waits tries again. -/
  | retry (task : ℕ)
  /-- A `reserve` that waits times out, or is cancelled. -/
  | leave (task : ℕ)
  | release (category : String) (size : Int)
  | snapshot (force : Bool)
  | snapshotCached
  | maximumCapacityBytes

namespace MemoryRun

/-- A refresh, beside what is known of the attempts. -/
def refresh (force : Bool) (run : MemoryRun) : MemorySample × MemoryRun :=
  let (sample, governor) := run.governor.refresh force
  (sample, { run with governor, failed := (run.governor.attempt force).getD run.failed })

/-- A decision is entered. -/
def decided (granted : Bool) (governor : MemoryGovernor) (grant : Grant) (run : MemoryRun) :
    MemoryRun :=
  { run with governor, grants := if granted then run.grants ++ [grant] else run.grants }

def report (bytes : List Int) (run : MemoryRun) : MemoryRun :=
  { run with reported := run.reported ++ bytes }

/-- `reserve_nowait_decision`. A negative size raises. -/
def reserveNowait (category : String) (size : Int) (run : MemoryRun) : MemoryRun :=
  if size < 0 then run
  else
    let category := MemoryGovernor.normalizedCategory category
    let (sample, refreshed) := run.refresh false
    let decision := refreshed.governor.decisionOf sample category size
    let (granted, governor) := run.governor.reserveNowait category size
    (refreshed.decided granted governor
      ⟨category, size, refreshed.governor, sample, refreshed.failed⟩).report
        [decision.availableBeforeBytes, decision.availableAfterBytes]

/-- An attempt of `reserve`: whether it succeeds. -/
def tryReserve (category : String) (size : Int) (run : MemoryRun) : Bool × MemoryRun :=
  let (sample, refreshed) := run.refresh false
  let (granted, governor) := run.governor.tryReserve category size
  (granted, refreshed.decided granted governor
    ⟨category, size, refreshed.governor, sample, refreshed.failed⟩)

/-- The start of `reserve`: it returns at once, or waits. A timeout that is not positive and a
negative size raise. -/
def reserve (task : ℕ) (category : String) (size : Int) (timeoutPositive : Bool) (run : MemoryRun) :
    MemoryRun :=
  if !timeoutPositive || size < 0 || size = 0 then run
  else
    let category := MemoryGovernor.normalizedCategory category
    let (granted, run) := run.tryReserve category size
    if granted then run else { run with waiting := run.waiting ++ [⟨task, category, size⟩] }

/-- A `reserve` that waits no longer. -/
def leave (task : ℕ) (run : MemoryRun) : MemoryRun :=
  { run with waiting := run.waiting.filter fun waiting => waiting.task ≠ task }

def retry (task : ℕ) (run : MemoryRun) : MemoryRun :=
  match run.waiting.find? fun waiting => waiting.task = task with
  | none => run
  | some waiting =>
    let (granted, run) := run.tryReserve waiting.category waiting.size
    if granted then run.leave task else run

def release (category : String) (size : Int) (run : MemoryRun) : MemoryRun :=
  let category := MemoryGovernor.normalizedCategory category
  match run.governor.release category size with
  | .error _ => run
  | .ok governor => { run with governor, releases := run.releases ++ [(category, size)] }

def snapshot (force : Bool) (run : MemoryRun) : MemoryRun :=
  let (sample, run) := run.refresh force
  run.report [run.governor.available sample]

def snapshotCached (run : MemoryRun) : MemoryRun :=
  let sample := run.governor.sample.getD ⟨none, none, none⟩
  run.report [run.governor.available sample]

/-- One section of a call under the lock. -/
def step (run : MemoryRun) : MemoryCall → MemoryRun
  | .reserveNowait category size => run.reserveNowait category size
  | .reserve task category size timeoutPositive => run.reserve task category size timeoutPositive
  | .retry task => run.retry task
  | .leave task => run.leave task
  | .release category size => run.release category size
  | .snapshot force => run.snapshot force
  | .snapshotCached => run.snapshotCached
  | .maximumCapacityBytes => (run.refresh true).2

/-! ### The ledger -/

/-- The bytes granted for a category. -/
def granted (run : MemoryRun) (category : String) : Int :=
  ((run.grants.filter fun grant => grant.category = category).map Grant.size).sum

/-- The bytes released for a category. -/
def released (run : MemoryRun) (category : String) : Int :=
  ((run.releases.filter fun entry => entry.1 = category).map Prod.snd).sum

end MemoryRun

/-- **A grant fits** the capacity of its sample: the capacity that is reserved already, or what the
sample leaves without it. -/
structure Grant.Sound (grant : Grant) : Prop where
  capacity : grant.governor.capacity grant.sample =
    max grant.governor.reserved.total (grant.governor.baseCapacity grant.sample grant.failed)
  fits : grant.governor.reserved.total + grant.size ≤ grant.governor.capacity grant.sample
  base : 0 < grant.size → grant.governor.reserved.total + grant.size ≤
    grant.governor.baseCapacity grant.sample grant.failed

/-- **The books of a run.** -/
structure Ledger (run : MemoryRun) : Prop where
  distinct : run.governor.reserved.Distinct
  balance : ∀ category,
    run.governor.reservedFor category = run.granted category - run.released category
  nonneg : ∀ category, 0 ≤ run.governor.reservedFor category
  total : run.governor.reserved.total =
    (run.grants.map Grant.size).sum - (run.releases.map Prod.snd).sum
  failed : run.governor.sampleError = run.failed
  waiting : ∀ waiting ∈ run.waiting, 0 < waiting.size
  grants : ∀ grant ∈ run.grants, grant.Sound
  reported : ∀ bytes ∈ run.reported, 0 ≤ bytes

namespace MemoryGovernor

variable {governor : MemoryGovernor} {force : Bool}

theorem refresh_reserved : (governor.refresh force).2.reserved = governor.reserved := by
  unfold refresh
  split
  · unfold refreshForced
    dsimp only
    split <;> rfl
  · exact refreshSample_reserved governor

/-- The error is there exactly while the last attempt has failed. -/
theorem refresh_sampleError :
    (governor.refresh force).2.sampleError = (governor.attempt force).getD
      governor.sampleError := by
  unfold refresh attempt
  cases force with
  | true =>
    rw [if_pos rfl]
    unfold refreshForced
    dsimp only
    cases (governor.readings governor.refreshes).source <;> cases governor.sample <;> rfl
  | false =>
    rw [if_neg Bool.false_ne_true]
    unfold refreshSample
    dsimp only
    cases (governor.readings governor.refreshes).source <;>
      cases (governor.readings governor.refreshes).cacheFresh <;> cases governor.sample <;> rfl

theorem available_nonneg (governor : MemoryGovernor) (sample : MemorySample) :
    0 ≤ governor.available sample := Int.le_max_left 0 _

theorem sound_of_available {sample : MemorySample} {category : String} {size : Int} {failed : Bool}
    (same : governor.sampleError = failed) (fits : size ≤ governor.available sample) :
    Grant.Sound ⟨category, size, governor, sample, failed⟩ := by
  have capacity := capacity_eq governor sample
  rw [same] at capacity
  rw [available_eq] at fits
  refine ⟨capacity, ?_, fun some_ => ?_⟩
  · show governor.reserved.total + size ≤ governor.capacity sample
    omega
  · have some_ : 0 < size := some_
    show governor.reserved.total + size ≤ governor.baseCapacity sample failed
    omega

/-- **A release**, beyond its category. -/
theorem release_books (distinct : governor.reserved.Distinct)
    (nonneg : ∀ category, 0 ≤ governor.reservedFor category) {after : MemoryGovernor}
    {category : String} {size : Int} (released : governor.release category size = .ok after) :
    0 ≤ size ∧ size ≤ governor.reservedFor category ∧ after.reserved.Distinct ∧
      after.reserved.total = governor.reserved.total - size ∧
        after.sampleError = governor.sampleError := by
  unfold release at released
  by_cases negative : size < 0
  · rw [if_pos negative] at released
    cases released
  rw [if_neg negative] at released
  by_cases zero : size = 0
  · rw [if_pos zero] at released
    cases released
    subst zero
    exact ⟨Int.le_refl 0, nonneg category, distinct, (Int.sub_zero _).symm, rfl⟩
  rw [if_neg zero] at released
  by_cases short : governor.reserved.get category < size
  · rw [if_pos short] at released
    cases released
  rw [if_neg short] at released
  have kept := Counter.distinct_add distinct category (-size)
  have lower := Counter.total_add governor.reserved category (-size)
  cases released
  refine ⟨Int.not_lt.mp negative, Int.not_lt.mp short, ?_, ?_, rfl⟩
  · dsimp only
    split
    · exact Counter.distinct_erase kept category
    · exact kept
  · dsimp only
    split
    · rename_i emptied
      rw [Counter.total_erase kept, emptied, lower]
      omega
    · rw [lower]
      omega

end MemoryGovernor

namespace MemoryRun

variable {run : MemoryRun}

/-- **A grant** is entered. -/
theorem ledger_grant (ledger : Ledger run) {governor : MemoryGovernor} {grant : Grant}
    (sound : grant.Sound) (positive : 0 ≤ grant.size)
    (distinct : governor.reserved.Distinct)
    (reserved : ∀ category, governor.reservedFor category =
      run.governor.reservedFor category + if category = grant.category then grant.size else 0)
    (total : governor.reserved.total = run.governor.reserved.total + grant.size)
    (failed : governor.sampleError = run.governor.sampleError) :
    Ledger { run with governor, grants := run.grants ++ [grant] } where
  distinct := distinct
  balance category := by
    rw [reserved, ledger.balance]
    unfold granted released
    rw [List.filter_append, List.map_append, List.sum_append, List.filter_singleton]
    by_cases same : grant.category = category
    · rw [if_pos same.symm, decide_eq_true same]
      simp only [cond_true, List.map_cons, List.map_nil, List.sum_cons, List.sum_nil]
      omega
    · rw [if_neg fun other => same other.symm, decide_eq_false same]
      simp only [cond_false, List.map_nil, List.sum_nil]
      omega
  nonneg category := by
    rw [reserved]
    have before := ledger.nonneg category
    split <;> omega
  total := by
    show governor.reserved.total = ((run.grants ++ [grant]).map Grant.size).sum - _
    rw [total, ledger.total, List.map_append, List.sum_append]
    simp only [List.map_cons, List.map_nil, List.sum_cons, List.sum_nil]
    omega
  failed := failed.trans ledger.failed
  waiting := ledger.waiting
  grants other there := by
    rcases List.mem_append.mp there with before | here
    · exact ledger.grants other before
    · exact List.mem_singleton.mp here ▸ sound
  reported := ledger.reported

theorem ledger_refresh (ledger : Ledger run) (force : Bool) : Ledger (run.refresh force).2 where
  distinct := by
    show ((run.governor.refresh force).2.reserved).Distinct
    rw [MemoryGovernor.refresh_reserved]
    exact ledger.distinct
  balance category := by
    show (run.governor.refresh force).2.reserved.get category = _
    rw [MemoryGovernor.refresh_reserved]
    exact ledger.balance category
  nonneg category := by
    show 0 ≤ (run.governor.refresh force).2.reserved.get category
    rw [MemoryGovernor.refresh_reserved]
    exact ledger.nonneg category
  total := by
    show (run.governor.refresh force).2.reserved.total = _
    rw [MemoryGovernor.refresh_reserved]
    exact ledger.total
  failed := by
    show (run.governor.refresh force).2.sampleError = (run.governor.attempt force).getD run.failed
    rw [MemoryGovernor.refresh_sampleError, ledger.failed]
  waiting := ledger.waiting
  grants := ledger.grants
  reported := ledger.reported

theorem ledger_report (ledger : Ledger run) {bytes : List Int} (nonneg : ∀ value ∈ bytes, 0 ≤
    value) :
    Ledger (run.report bytes) where
  distinct := ledger.distinct
  balance := ledger.balance
  nonneg := ledger.nonneg
  total := ledger.total
  failed := ledger.failed
  waiting := ledger.waiting
  grants := ledger.grants
  reported value there := (List.mem_append.mp there).elim (ledger.reported value) (nonneg value)

theorem ledger_waiting (ledger : Ledger run) {waiting : List Waiting}
    (positive : ∀ entry ∈ waiting, 0 < entry.size) : Ledger { run with waiting := waiting } where
  distinct := ledger.distinct
  balance := ledger.balance
  nonneg := ledger.nonneg
  total := ledger.total
  failed := ledger.failed
  waiting := positive
  grants := ledger.grants
  reported := ledger.reported

theorem ledger_rejected (ledger : Ledger run) (rejected : Counter) :
    Ledger { run with governor := { run.governor with rejected := rejected } } where
  distinct := ledger.distinct
  balance := ledger.balance
  nonneg := ledger.nonneg
  total := ledger.total
  failed := ledger.failed
  waiting := ledger.waiting
  grants := ledger.grants
  reported := ledger.reported

theorem ledger_add (ledger : Ledger run) {category : String} {size peak : Int}
    {sample : MemorySample} (positive : 0 ≤ size)
    (fits : size ≤ run.governor.available sample) :
    Ledger { run with
      governor := { run.governor with
        reserved := run.governor.reserved.add category size
        peakReservedBytes := peak }
      grants := run.grants ++ [⟨category, size, run.governor, sample, run.failed⟩] } :=
  ledger_grant ledger (MemoryGovernor.sound_of_available ledger.failed fits) positive
    (Counter.distinct_add ledger.distinct category size)
    (fun other => Counter.get_add run.governor.reserved category other size)
    (Counter.total_add _ _ _) rfl

theorem refreshed (ledger : Ledger run) : ∃ sample next, run.refresh false = (sample, next) ∧
    run.governor.refreshSample = (sample, next.governor) ∧ Ledger next ∧
      next.waiting = run.waiting :=
  ⟨_, _, rfl, rfl, ledger_refresh ledger false, rfl⟩

theorem ledger_reserveNowait (ledger : Ledger run) (category : String) (size : Int) :
    Ledger (run.reserveNowait category size) := by
  unfold reserveNowait
  by_cases negative : size < 0
  · rw [if_pos negative]
    exact ledger
  have positive : 0 ≤ size := Int.not_lt.mp negative
  rw [if_neg negative]
  obtain ⟨sample, next, isNext, sampled, fresh, -⟩ := refreshed ledger
  unfold MemoryGovernor.reserveNowait
  rw [isNext, sampled]
  dsimp only
  refine ledger_report ?_ ?_
  · by_cases fits : size ≤ next.governor.available sample
    · rw [if_pos fits]
      by_cases zero : size = 0
      · rw [if_pos zero]
        subst zero
        exact ledger_grant fresh (MemoryGovernor.sound_of_available fresh.failed fits)
          (Int.le_refl 0) fresh.distinct (fun other => by split <;> exact (Int.add_zero _).symm)
          (Int.add_zero _).symm rfl
      · rw [if_neg zero]
        exact ledger_add fresh positive fits
    · rw [if_neg fits]
      exact ledger_rejected fresh _
  · intro value there
    rcases List.mem_cons.mp there with rfl | there
    · exact MemoryGovernor.available_nonneg next.governor sample
    · rw [List.mem_singleton.mp there]
      exact Int.le_max_left 0 _

theorem ledger_tryReserve (ledger : Ledger run) (category : String) {size : Int}
    (positive : 0 < size) : Ledger (run.tryReserve category size).2 ∧
      (run.tryReserve category size).2.waiting = run.waiting := by
  obtain ⟨sample, next, isNext, sampled, fresh, sameWaiting⟩ := refreshed ledger
  unfold tryReserve
  rw [isNext, MemoryGovernor.tryReserve, sampled]
  dsimp only
  refine ⟨?_, sameWaiting⟩
  by_cases beyond : next.governor.available sample < size
  · rw [if_pos beyond]
    exact fresh
  · rw [if_neg beyond]
    exact ledger_add fresh (Int.le_of_lt positive) (Int.not_lt.mp beyond)

theorem ledger_leave (ledger : Ledger run) (task : ℕ) : Ledger (run.leave task) :=
  ledger_waiting ledger fun entry there => ledger.waiting entry (List.mem_of_mem_filter there)

theorem ledger_reserve (ledger : Ledger run) (task : ℕ) (category : String) (size : Int)
    (timeoutPositive : Bool) : Ledger (run.reserve task category size timeoutPositive) := by
  unfold reserve
  split
  · exact ledger
  rename_i asks
  have positive : 0 < size := by
    simp only [Bool.or_eq_true, decide_eq_true_eq, not_or] at asks
    omega
  obtain ⟨books, sameWaiting⟩ :=
    ledger_tryReserve ledger (MemoryGovernor.normalizedCategory category) positive
  dsimp only
  split
  · exact books
  · refine ledger_waiting books fun entry there => ?_
    rw [sameWaiting] at there
    rcases List.mem_append.mp there with before | here
    · exact ledger.waiting entry before
    · rw [List.mem_singleton.mp here]
      exact positive

theorem ledger_retry (ledger : Ledger run) (task : ℕ) : Ledger (run.retry task) := by
  unfold retry
  split
  · exact ledger
  · rename_i entry found
    have positive := ledger.waiting entry (List.mem_of_find?_eq_some found)
    obtain ⟨books, -⟩ := ledger_tryReserve ledger entry.category positive
    dsimp only
    split
    · exact ledger_leave books task
    · exact books

/-- **A release** is entered. -/
theorem ledger_release (ledger : Ledger run) (category : String) (size : Int) :
    Ledger (run.release category size) := by
  unfold release
  obtain ⟨name, isName⟩ : ∃ name, MemoryGovernor.normalizedCategory category = name := ⟨_, rfl⟩
  dsimp only
  rw [isName]
  split
  · exact ledger
  rename_i governor released
  have reserved := MemoryGovernor.release_reserved released
  obtain ⟨positive, enough, distinct, total, failed⟩ :
      0 ≤ size ∧ size ≤ run.governor.reservedFor name ∧ governor.reserved.Distinct ∧
        governor.reserved.total = run.governor.reserved.total - size ∧
          governor.sampleError = run.governor.sampleError :=
    MemoryGovernor.release_books ledger.distinct ledger.nonneg released
  refine ⟨distinct, fun other => ?_, fun other => ?_, ?_, failed.trans ledger.failed,
    ledger.waiting, ledger.grants, ledger.reported⟩
  · rw [reserved, ledger.balance]
    unfold granted MemoryRun.released
    rw [List.filter_append, List.map_append, List.sum_append, List.filter_singleton]
    by_cases same : name = other
    · rw [if_pos same.symm, decide_eq_true same]
      simp only [cond_true, List.map_cons, List.map_nil, List.sum_cons, List.sum_nil]
      omega
    · rw [if_neg fun other => same other.symm, decide_eq_false same]
      simp only [cond_false, List.map_nil, List.sum_nil]
      omega
  · have before := ledger.nonneg other
    rw [reserved]
    by_cases same : other = name
    · subst same
      rw [if_pos rfl]
      omega
    · rw [if_neg same]
      omega
  · show governor.reserved.total = _ - ((run.releases ++ [(name, size)]).map Prod.snd).sum
    rw [total, ledger.total, List.map_append, List.sum_append]
    simp only [List.map_cons, List.map_nil, List.sum_cons, List.sum_nil]
    omega

/-- **Every call** keeps the books. -/
theorem ledger_step (ledger : Ledger run) (call : MemoryCall) : Ledger (run.step call) := by
  cases call with
  | reserveNowait category size => exact ledger_reserveNowait ledger category size
  | reserve task category size timeoutPositive =>
    exact ledger_reserve ledger task category size timeoutPositive
  | retry task => exact ledger_retry ledger task
  | leave task => exact ledger_leave ledger task
  | release category size => exact ledger_release ledger category size
  | snapshot force =>
    refine ledger_report (ledger_refresh ledger force) fun value there => ?_
    rw [List.mem_singleton.mp there]
    exact MemoryGovernor.available_nonneg _ _
  | snapshotCached =>
    refine ledger_report ledger fun value there => ?_
    rw [List.mem_singleton.mp there]
    exact MemoryGovernor.available_nonneg _ _
  | maximumCapacityBytes => exact ledger_refresh ledger true

theorem ledger_run (ledger : Ledger run) (calls : List MemoryCall) :
    Ledger (calls.foldl step run) := by
  induction calls generalizing run with
  | nil => exact ledger
  | cons call rest ih => exact ih (ledger_step ledger call)

/-- A governor from which nothing is reserved, and that has not sampled yet. -/
def start (governor : MemoryGovernor) : MemoryRun where
  governor := { governor with
    refreshes := 0
    sample := none
    sampleError := false
    reserved := []
    rejected := []
    peakReservedBytes := 0 }

theorem ledger_start (governor : MemoryGovernor) : Ledger (start governor) where
  distinct := List.nodup_nil
  balance _ := rfl
  nonneg _ := Int.le_refl 0
  total := rfl
  failed := rfl
  waiting _ there := absurd there List.not_mem_nil
  grants _ there := absurd there List.not_mem_nil
  reported _ there := absurd there List.not_mem_nil

/-- **The governor is sound** over every run, whatever its samples are: each category holds its
grants less its releases and is never negative, every grant fits the capacity of the sample it was
decided from, and no available bytes are reported as negative. -/
theorem memory_run_sound (governor : MemoryGovernor) (calls : List MemoryCall) :
    ∃ run, calls.foldl step (start governor) = run ∧
      (∀ category,
        run.governor.reservedFor category = run.granted category - run.released category ∧
          0 ≤ run.governor.reservedFor category) ∧
      (∀ grant ∈ run.grants,
        grant.governor.capacity grant.sample =
            max grant.governor.reserved.total
              (grant.governor.baseCapacity grant.sample grant.failed) ∧
          grant.governor.reserved.total + grant.size ≤ grant.governor.capacity grant.sample ∧
          (0 < grant.size → grant.governor.reserved.total + grant.size ≤
            grant.governor.baseCapacity grant.sample grant.failed) ∧
          (grant.failed = true → grant.governor.baseCapacity grant.sample grant.failed ≤
            grant.governor.fallbackBudgetBytes)) ∧
      ∀ bytes ∈ run.reported, 0 ≤ bytes := by
  have ledger := ledger_run (ledger_start governor) calls
  exact ⟨_, rfl, fun category => ⟨ledger.balance category, ledger.nonneg category⟩,
    fun grant there => ⟨(ledger.grants grant there).capacity, (ledger.grants grant there).fits,
      (ledger.grants grant there).base, fun failed => failed ▸ Int.min_le_right _ _⟩,
    ledger.reported⟩

end MemoryRun

end UniApi.Admission
