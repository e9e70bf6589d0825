/-
**The adaptive memory governor: one parent budget for every retained byte.**

`reserve_nowait` and `release` of `AdaptiveMemoryGovernor`, over a counter of reserved bytes by
category. What the governor reads from the kernel is an input: `readings` lists, for each refresh,
whether the cached sample is still fresh and what the memory source gives (`none` when it raises).
The float ratio of the guard is the function `ratioGuard`.

* `reserve_reserved`: a grant adds its size to its category, a refusal changes no category;
* `release_reserved`: a release takes its size from its category, and raises rather than underflow.
-/

import Mathlib.Algebra.Order.Ring.Int
import UniApi.Lib.Raise

namespace UniApi.Admission

open UniApi.Lib

/-! ### Counters -/

/-- A counter: the categories present with their values. An absent category counts zero. -/
abbrev Counter := List (String × Int)

namespace Counter

/-- `counter[category]`. -/
def get (counter : Counter) (category : String) : Int :=
  match counter with
  | [] => 0
  | (name, value) :: rest => if name = category then value else get rest category

/-- `counter[category] += amount`. -/
def add (counter : Counter) (category : String) (amount : Int) : Counter :=
  match counter with
  | [] => [(category, amount)]
  | (name, value) :: rest =>
    if name = category then (name, value + amount) :: rest else (name, value) :: add rest category amount

/-- `del counter[category]`. -/
def erase (counter : Counter) (category : String) : Counter :=
  counter.filter fun entry => entry.1 ≠ category

/-- `sum(counter.values())`. -/
def total (counter : Counter) : Int := (counter.map Prod.snd).sum

@[simp] theorem get_nil (category : String) : get [] category = 0 := rfl

theorem get_add (counter : Counter) (category other : String) (amount : Int) :
    (counter.add category amount).get other =
      counter.get other + if other = category then amount else 0 := by
  induction counter with
  | nil =>
    by_cases same : category = other
    · simp [add, get, same]
    · simp [add, get, same, Ne.symm same]
  | cons entry rest ih =>
    obtain ⟨name, value⟩ := entry
    simp only [add]
    split
    · rename_i found
      subst found
      by_cases same : name = other
      · simp [get, same]
      · simp [get, same, Ne.symm same]
    · rename_i notFound
      by_cases same : name = other
      · subst same
        simp [get, notFound]
      · simp [get, same, ih]

theorem get_erase (counter : Counter) (category other : String) :
    (counter.erase category).get other = if other = category then 0 else counter.get other := by
  induction counter with
  | nil => simp [erase, get]
  | cons entry rest ih =>
    obtain ⟨name, value⟩ := entry
    simp only [erase, ne_eq, decide_not] at ih ⊢
    by_cases dropped : name = category
    · subst dropped
      by_cases same : other = name
      · simpa [same] using ih
      · simp [ih, get, same, Ne.symm same]
    · by_cases same : name = other
      · subst same
        simp [dropped, get]
      · simp [dropped, get, same, ih]

end Counter

/-! ### The governor -/

/-- What the memory source reports. -/
structure MemorySample where
  currentBytes : Option Int
  limitBytes : Option Int
  highBytes : Option Int

/-- What one refresh finds: whether the cached sample is younger than the cache period, and what
the source gives if it is asked (`none`: it raised). -/
structure MemoryReading where
  cacheFresh : Bool
  source : Option MemorySample

structure MemoryGovernor where
  configuredSoftLimitBytes : Option Int
  guardBytes : Int
  /-- `int(limit * guard_ratio)`. -/
  ratioGuard : Int → Int
  fallbackBudgetBytes : Int
  readings : Nat → MemoryReading
  refreshes : Nat
  sample : Option MemorySample
  sampleError : Bool
  reserved : Counter
  rejected : Counter
  peakReservedBytes : Int

namespace MemoryGovernor

/-- `_refresh_sample_locked`. -/
def refreshSample (governor : MemoryGovernor) : MemorySample × MemoryGovernor :=
  let reading := governor.readings governor.refreshes
  let governor := { governor with refreshes := governor.refreshes + 1 }
  match governor.sample, reading.cacheFresh, reading.source with
  | some sample, true, _ => (sample, governor)
  | _, _, some sample => (sample, { governor with sample := some sample, sampleError := false })
  | some sample, _, none => (sample, { governor with sampleError := true })
  | none, _, none =>
    let unavailable : MemorySample := ⟨none, none, none⟩
    (unavailable, { governor with sample := some unavailable, sampleError := true })

/-- The limit in force: the smaller of the two the sample gives. -/
def effectiveLimit (sample : MemorySample) : Option Int :=
  match sample.limitBytes, sample.highBytes with
  | some limit, some high => some (min limit high)
  | none, some high => some high
  | limit, none => limit

/-- The soft limit of `_limits_locked`. -/
def softLimit (governor : MemoryGovernor) (sample : MemorySample) : Option Int :=
  match governor.configuredSoftLimitBytes, effectiveLimit sample with
  | some configured, some limit => some (min configured limit)
  | some configured, none => some configured
  | none, some limit =>
    let absoluteGuard := min governor.guardBytes (limit / 2)
    let guard := max absoluteGuard (governor.ratioGuard limit)
    some (max 1 (limit - min guard (max 0 (limit - 1))))
  | none, none => none

/-- The bytes still available: the last component of `_limits_locked`. -/
def available (governor : MemoryGovernor) (sample : MemorySample) : Int :=
  let reserved := governor.reserved.total
  let capacity :=
    match governor.softLimit sample, sample.currentBytes with
    | some soft, some current => max reserved (soft - current)
    | _, _ => max reserved governor.fallbackBudgetBytes
  let capacity :=
    if governor.sampleError then max reserved (min capacity governor.fallbackBudgetBytes) else capacity
  max 0 (capacity - reserved)

/-- `reserve_nowait`: whether the size was granted. The sizes asked for are not negative. -/
def reserveNowait (governor : MemoryGovernor) (category : String) (size : Int) :
    Bool × MemoryGovernor :=
  let (sample, governor) := governor.refreshSample
  let reservedBefore := governor.reserved.total
  if size ≤ governor.available sample then
    if size = 0 then (true, governor)
    else (true, { governor with
      reserved := governor.reserved.add category size
      peakReservedBytes := max governor.peakReservedBytes (reservedBefore + size) })
  else (false, { governor with rejected := governor.rejected.add category 1 })

/-- What `release` raises. -/
inductive ReleaseError where
  | negative
  | underflow
  deriving DecidableEq, Repr

/-- `release`. -/
def release (governor : MemoryGovernor) (category : String) (size : Int) :
    Except ReleaseError MemoryGovernor :=
  if size < 0 then .error .negative
  else if size = 0 then .ok governor
  else if governor.reserved.get category < size then .error .underflow
  else
    let reserved := governor.reserved.add category (-size)
    let reserved := if reserved.get category = 0 then reserved.erase category else reserved
    .ok { governor with reserved }

/-- The bytes reserved for a category. -/
def reservedFor (governor : MemoryGovernor) (category : String) : Int := governor.reserved.get category

theorem refreshSample_reserved (governor : MemoryGovernor) :
    governor.refreshSample.2.reserved = governor.reserved := by
  unfold refreshSample
  dsimp only
  split <;> rfl

/-- **A grant adds its size to its category; a refusal changes no category.** -/
theorem reserve_reserved (governor : MemoryGovernor) (category other : String) (size : Int) :
    (governor.reserveNowait category size).2.reservedFor other =
      governor.reservedFor other +
        if (governor.reserveNowait category size).1 ∧ other = category then size else 0 := by
  have sampled := refreshSample_reserved governor
  unfold reserveNowait reservedFor
  split
  rename_i sample refreshed here
  rw [here] at sampled
  simp only at sampled
  dsimp only
  split
  · split
    · rename_i zero
      simp [zero, sampled]
    · simp [Counter.get_add, sampled]
  · simp [sampled]

/-- **A release takes its size from its category**, and raises rather than underflow. -/
theorem release_reserved {governor after : MemoryGovernor} {category : String} {size : Int}
    (released : governor.release category size = .ok after) (other : String) :
    after.reservedFor other = governor.reservedFor other - if other = category then size else 0 := by
  unfold release at released
  unfold reservedFor
  split at released
  · cases released
  split at released
  · rename_i zero
    cases released
    simp [zero]
  split at released
  · cases released
  · cases released
    simp only
    split
    · rename_i emptied
      rw [Counter.get_add] at emptied
      rw [Counter.get_erase, Counter.get_add]
      by_cases same : other = category
      · subst same
        simp only [if_true] at emptied ⊢
        omega
      · simp [same]
    · rw [Counter.get_add]
      split <;> omega

theorem release_ok {governor : MemoryGovernor} {category : String} {size : Int} (positive : 0 ≤ size)
    (enough : size ≤ governor.reservedFor category) :
    ∃ after, governor.release category size = .ok after := by
  unfold reservedFor at enough
  unfold release
  rw [if_neg (by omega)]
  split
  · exact ⟨_, rfl⟩
  · rw [if_neg (by omega)]
    exact ⟨_, rfl⟩

end MemoryGovernor

end UniApi.Admission
