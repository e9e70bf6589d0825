/-
**A semaphore whose waiters stand in a queue.**

A permit is free, or it was granted to a waiter that has not gone on yet. `permits` counts both, so
that a queue may be cancelled and woken in any order without a permit lost or made up:

* `acquire_taken`, `resume_spec`: who goes on takes one permit with it, and nobody else does;
* `cancel_spec`, `release_spec`: a cancellation moves none, a release gives one back;
* `Onward`: to the others, a step does no more than to grant a turn that is pending.
-/

import Mathlib.Data.List.Basic
import Mathlib.Tactic.Set

namespace UniApi.Lib

/-- The future of a waiter. -/
inductive Turn where
  | pending
  | granted
  | cancelled
  deriving DecidableEq

/-! ### The queue -/

namespace Turn

variable {ι : Type} [DecidableEq ι]

/-- The turn of a name. -/
def lookup (name : ι) : List (ι × Turn) → Option Turn
  | [] => none
  | (head, turn) :: rest => if head = name then some turn else lookup name rest

/-- The queue with the turn of a name changed. -/
def set (name : ι) (turn : Turn) : List (ι × Turn) → List (ι × Turn)
  | [] => []
  | (head, old) :: rest =>
    if head = name then (head, turn) :: rest else (head, old) :: set name turn rest

/-- The queue without a name. -/
def remove (name : ι) : List (ι × Turn) → List (ι × Turn)
  | [] => []
  | (head, turn) :: rest => if head = name then rest else (head, turn) :: remove name rest

omit [DecidableEq ι] in
/-- The queue with its first pending turn granted, if there is one. -/
def grantFirst : List (ι × Turn) → Option (List (ι × Turn))
  | [] => none
  | (head, .pending) :: rest => some ((head, .granted) :: rest)
  | entry :: rest => (grantFirst rest).map (entry :: ·)

/-- The number of turns granted. -/
def grants : List (ι × Turn) → Nat
  | [] => 0
  | (_, turn) :: rest => (if turn = .granted then 1 else 0) + grants rest

/-- What may become of the turn of a waiter that does nothing. -/
def Onward (before after : Option Turn) : Prop :=
  after = before ∨ (before = some .pending ∧ after = some .granted)

omit [DecidableEq ι] in
theorem Onward.trans {first second third : Option Turn} (one : Onward first second)
    (two : Onward second third) : Onward first third := by
  rcases one with rfl | ⟨pending, granted⟩
  · exact two
  · rcases two with rfl | ⟨pending', -⟩
    · exact Or.inr ⟨pending, granted⟩
    · rw [granted] at pending'
      cases pending'

variable {queue : List (ι × Turn)} {name : ι}

theorem lookup_eq_none_iff :
    lookup name queue = none ↔ name ∉ queue.map Prod.fst := by
  induction queue with
  | nil => simp [lookup]
  | cons entry rest ih =>
    obtain ⟨head, turn⟩ := entry
    by_cases same : head = name
    · simp [lookup, same]
    · simp [lookup, same, ih, Ne.symm same]

theorem grants_set {old : Turn} (found : lookup name queue = some old) (turn : Turn) :
    grants (set name turn queue) + (if old = .granted then 1 else 0) =
      grants queue + if turn = .granted then 1 else 0 := by
  induction queue with
  | nil => cases found
  | cons entry rest ih =>
    obtain ⟨head, first⟩ := entry
    unfold lookup at found
    unfold set
    by_cases same : head = name
    · rw [if_pos same] at found ⊢
      cases found
      simp only [grants]
      omega
    · rw [if_neg same] at found ⊢
      have later := ih found
      simp only [grants]
      omega

theorem names_set (name : ι) (turn : Turn) (queue : List (ι × Turn)) :
    (set name turn queue).map Prod.fst = queue.map Prod.fst := by
  induction queue with
  | nil => rfl
  | cons entry rest ih =>
    unfold set
    split
    · rfl
    · rw [List.map_cons, List.map_cons, ih]

theorem lookup_set {old : Turn} (found : lookup name queue = some old) (turn : Turn) :
    lookup name (set name turn queue) = some turn := by
  induction queue with
  | nil => cases found
  | cons entry rest ih =>
    obtain ⟨head, first⟩ := entry
    unfold lookup at found
    unfold set
    by_cases same : head = name
    · rw [if_pos same]
      exact if_pos same
    · rw [if_neg same] at found ⊢
      unfold lookup
      rw [if_neg same]
      exact ih found

theorem lookup_set_of_ne {name other : ι} (different : other ≠ name) (turn : Turn)
    (queue : List (ι × Turn)) : lookup other (set name turn queue) = lookup other queue := by
  induction queue with
  | nil => rfl
  | cons entry rest ih =>
    obtain ⟨head, first⟩ := entry
    unfold set
    by_cases same : head = name
    · have apart : head ≠ other := fun alike => different (alike ▸ same)
      rw [if_pos same]
      unfold lookup
      rw [if_neg apart, if_neg apart]
    · rw [if_neg same]
      unfold lookup
      rw [ih]

theorem grants_remove {old : Turn} (found : lookup name queue = some old) :
    grants (remove name queue) + (if old = .granted then 1 else 0) = grants queue := by
  induction queue with
  | nil => cases found
  | cons entry rest ih =>
    obtain ⟨head, first⟩ := entry
    unfold lookup at found
    unfold remove
    by_cases same : head = name
    · rw [if_pos same] at found ⊢
      cases found
      simp only [grants]
      omega
    · rw [if_neg same] at found ⊢
      have later := ih found
      simp only [grants]
      omega

theorem names_remove (name : ι) (queue : List (ι × Turn)) :
    (remove name queue).map Prod.fst = (queue.map Prod.fst).erase name := by
  induction queue with
  | nil => rfl
  | cons entry rest ih =>
    obtain ⟨head, turn⟩ := entry
    unfold remove
    by_cases same : head = name
    · rw [if_pos same, same, List.map_cons, List.erase_cons_head]
    · rw [if_neg same, List.map_cons, List.map_cons, ih, List.erase_cons_tail]
      simpa using same

theorem lookup_remove_of_ne {name other : ι} (different : other ≠ name)
    (queue : List (ι × Turn)) : lookup other (remove name queue) = lookup other queue := by
  induction queue with
  | nil => rfl
  | cons entry rest ih =>
    obtain ⟨head, turn⟩ := entry
    unfold remove
    by_cases same : head = name
    · have apart : head ≠ other := fun alike => different (alike ▸ same)
      rw [if_pos same]
      conv_rhs => unfold lookup
      rw [if_neg apart]
    · rw [if_neg same]
      unfold lookup
      rw [ih]

theorem lookup_append (other : ι) (turn : Turn)
    (different : other ≠ name) : lookup other (queue ++ [(name, turn)]) = lookup other queue := by
  induction queue with
  | nil => exact if_neg (Ne.symm different)
  | cons entry rest ih =>
    rw [List.cons_append]
    unfold lookup
    rw [ih]

theorem lookup_append_self (absent : name ∉ queue.map Prod.fst) (turn : Turn) :
    lookup name (queue ++ [(name, turn)]) = some turn := by
  induction queue with
  | nil => exact if_pos rfl
  | cons entry rest ih =>
    rw [List.map_cons, List.mem_cons, not_or] at absent
    rw [List.cons_append]
    unfold lookup
    rw [if_neg (Ne.symm absent.1), ih absent.2]

omit [DecidableEq ι] in
theorem grants_append (queue : List (ι × Turn)) (name : ι) :
    grants (queue ++ [(name, .pending)]) = grants queue := by
  induction queue with
  | nil => rfl
  | cons entry rest ih =>
    rw [List.cons_append]
    unfold grants
    rw [ih]

/-- **Granting the first pending turn** keeps the queue and grants one turn more. -/
theorem grantFirst_spec {queue after : List (ι × Turn)} (granted : grantFirst queue = some after) :
    grants after = grants queue + 1 ∧ after.map Prod.fst = queue.map Prod.fst ∧
      ∀ name, Onward (lookup name queue) (lookup name after) := by
  induction queue generalizing after with
  | nil => cases granted
  | cons entry rest ih =>
    obtain ⟨head, turn⟩ := entry
    -- a turn that is not pending is passed over
    have behind (passed : (grantFirst rest).map ((head, turn) :: ·) = some after) :
        grants after = grants ((head, turn) :: rest) + 1 ∧
          after.map Prod.fst = ((head, turn) :: rest).map Prod.fst ∧
          ∀ name, Onward (lookup name ((head, turn) :: rest)) (lookup name after) := by
      obtain ⟨later, found, rfl⟩ := Option.map_eq_some_iff.mp passed
      obtain ⟨count, names, turns⟩ := ih found
      refine ⟨?_, ?_, fun name => ?_⟩
      · simp only [grants, count]
        omega
      · rw [List.map_cons, List.map_cons, names]
      · unfold lookup
        split
        · exact Or.inl rfl
        · exact turns name
    cases turn with
    | pending =>
      cases granted
      refine ⟨?_, rfl, fun name => ?_⟩
      · show 1 + grants rest = (0 + grants rest) + 1
        omega
      · unfold lookup
        split
        · exact Or.inr ⟨rfl, rfl⟩
        · exact Or.inl rfl
    | granted => exact behind granted
    | cancelled => exact behind granted

end Turn

/-! ### The semaphore -/

/-- `asyncio.Semaphore`: the free permits and the futures of the waiters, the first one first. -/
structure FifoSemaphore (ι : Type) where
  value : Nat
  waiters : List (ι × Turn) := []

namespace FifoSemaphore

variable {ι : Type} [DecidableEq ι]

def turn (name : ι) (semaphore : FifoSemaphore ι) : Option Turn :=
  Turn.lookup name semaphore.waiters

omit [DecidableEq ι] in
def names (semaphore : FifoSemaphore ι) : List ι := semaphore.waiters.map Prod.fst

/-- The permits that are free, and those of waiters that have not gone on with theirs. -/
def permits (semaphore : FifoSemaphore ι) : Nat :=
  semaphore.value + Turn.grants semaphore.waiters

/-- Whether a newcomer has to wait. -/
def locked (semaphore : FifoSemaphore ι) : Bool :=
  semaphore.value == 0 || semaphore.waiters.any fun entry => entry.2 != .cancelled

/-- The first waiter whose future is not done gets a permit. -/
def wakeUpNext (semaphore : FifoSemaphore ι) : FifoSemaphore ι :=
  match Turn.grantFirst semaphore.waiters with
  | none => semaphore
  | some waiters => { value := semaphore.value - 1, waiters }

/-- `acquire`, up to its await: whether it goes on at once. -/
def acquire (name : ι) (semaphore : FifoSemaphore ι) : Bool × FifoSemaphore ι :=
  if semaphore.locked then
    (false, { semaphore with waiters := semaphore.waiters ++ [(name, .pending)] })
  else (true, { semaphore with value := semaphore.value - 1 })

/-- The cancellation of the future of a waiter: whether it was not done. -/
def cancel (name : ι) (semaphore : FifoSemaphore ι) : Bool × FifoSemaphore ι :=
  if semaphore.turn name = some .pending then
    (true, { semaphore with waiters := Turn.set name .cancelled semaphore.waiters })
  else (false, semaphore)

/-- `acquire`, behind its await, of a waiter whose future is done: whether it goes on. An
interrupted waiter gives a permit that it was granted to the next one. -/
def resume (name : ι) (interrupted : Bool) (semaphore : FifoSemaphore ι) :
    Bool × FifoSemaphore ι :=
  let left := { semaphore with waiters := Turn.remove name semaphore.waiters }
  if semaphore.turn name = some .cancelled then (false, left)
  else if interrupted then (false, { left with value := left.value + 1 }.wakeUpNext)
  else (true, if 0 < left.value then left.wakeUpNext else left)

def release (semaphore : FifoSemaphore ι) : FifoSemaphore ι :=
  { semaphore with value := semaphore.value + 1 }.wakeUpNext

/-! ### Permits -/

theorem mem_names_iff {name : ι} {semaphore : FifoSemaphore ι} :
    name ∈ semaphore.names ↔ ∃ turn, semaphore.turn name = some turn := by
  rw [← Option.ne_none_iff_exists', ne_eq, turn, Turn.lookup_eq_none_iff, not_not]
  rfl

/-- **Waking up** the next waiter gives it a permit that was free. -/
theorem wakeUpNext_spec {semaphore : FifoSemaphore ι} (free : 0 < semaphore.value) :
    semaphore.wakeUpNext.permits = semaphore.permits ∧
      semaphore.wakeUpNext.names = semaphore.names ∧
      ∀ name, Turn.Onward (semaphore.turn name) (semaphore.wakeUpNext.turn name) := by
  unfold wakeUpNext
  split
  · exact ⟨rfl, rfl, fun name => Or.inl rfl⟩
  · rename_i waiters granted
    obtain ⟨count, names, turns⟩ := Turn.grantFirst_spec granted
    refine ⟨?_, names, turns⟩
    simp only [permits, count]
    omega

/-- **A release** gives one permit back. -/
theorem release_spec (semaphore : FifoSemaphore ι) :
    semaphore.release.permits = semaphore.permits + 1 ∧
      semaphore.release.names = semaphore.names ∧
      ∀ name, Turn.Onward (semaphore.turn name) (semaphore.release.turn name) := by
  obtain ⟨count, names, turns⟩ :=
    @wakeUpNext_spec ι _ { semaphore with value := semaphore.value + 1 } (Nat.succ_pos _)
  refine ⟨count.trans ?_, names, turns⟩
  simp only [permits]
  omega

/-- **Who goes on at once** takes a free permit. -/
theorem acquire_taken {name : ι} {semaphore after : FifoSemaphore ι}
    (taken : semaphore.acquire name = (true, after)) :
    after.permits + 1 = semaphore.permits ∧ after.names = semaphore.names ∧
      ∀ other, after.turn other = semaphore.turn other := by
  unfold acquire at taken
  split at taken
  · cases taken
  · rename_i free
    cases taken
    refine ⟨?_, rfl, fun other => rfl⟩
    have some_free : semaphore.value ≠ 0 := by
      intro none_free
      exact free (by simp [locked, none_free])
    simp only [permits]
    omega

/-- **Who has to wait** does so at the end of the queue. -/
theorem acquire_waits {name : ι} {semaphore after : FifoSemaphore ι}
    (waits : semaphore.acquire name = (false, after)) (absent : name ∉ semaphore.names) :
    after.permits = semaphore.permits ∧ after.names = semaphore.names ++ [name] ∧
      after.turn name = some .pending ∧
      ∀ other, other ≠ name → after.turn other = semaphore.turn other := by
  unfold acquire at waits
  split at waits
  · cases waits
    refine ⟨?_, ?_, Turn.lookup_append_self absent _, fun other different => ?_⟩
    · simp only [permits, Turn.grants_append]
    · simp [names]
    · exact Turn.lookup_append other _ different
  · cases waits

/-- **A cancellation** takes no permit from anybody. -/
theorem cancel_spec (name : ι) (semaphore : FifoSemaphore ι) :
    (semaphore.cancel name).2.permits = semaphore.permits ∧
      (semaphore.cancel name).2.names = semaphore.names ∧
      ((semaphore.cancel name).1 = true →
        (semaphore.cancel name).2.turn name = some .cancelled) ∧
      ((semaphore.cancel name).1 = false → (semaphore.cancel name).2 = semaphore) ∧
      ∀ other, other ≠ name → (semaphore.cancel name).2.turn other = semaphore.turn other := by
  unfold cancel
  split
  · rename_i pending
    refine ⟨?_, Turn.names_set _ _ _, fun _ => Turn.lookup_set pending _,
      fun done => (by cases done), fun other different => Turn.lookup_set_of_ne different _ _⟩
    have moved := Turn.grants_set pending .cancelled
    simp only [permits]
    simpa using moved
  · exact ⟨rfl, rfl, fun done => (by cases done), fun _ => rfl, fun other _ => rfl⟩

/-- **Who resumes** leaves the queue, and takes a permit with it exactly when it goes on. -/
theorem resume_spec {name : ι} {turn : Turn} {semaphore : FifoSemaphore ι} (interrupted : Bool)
    (there : semaphore.turn name = some turn) (done : turn ≠ .pending) :
    ((semaphore.resume name interrupted).1 = true ↔ turn = .granted ∧ interrupted = false) ∧
      (semaphore.resume name interrupted).2.permits +
          (if (semaphore.resume name interrupted).1 then 1 else 0) = semaphore.permits ∧
      (semaphore.resume name interrupted).2.names = semaphore.names.erase name ∧
      ∀ other, other ≠ name →
        Turn.Onward (semaphore.turn other) ((semaphore.resume name interrupted).2.turn other) := by
  have removed := Turn.grants_remove there
  have names := Turn.names_remove name semaphore.waiters
  have turns (other : ι) (different : other ≠ name) :
      Turn.lookup other (Turn.remove name semaphore.waiters) = semaphore.turn other :=
    Turn.lookup_remove_of_ne different _
  set left : FifoSemaphore ι :=
    { semaphore with waiters := Turn.remove name semaphore.waiters } with left_eq
  unfold resume
  rw [there]
  cases turn with
  | pending => exact absurd rfl done
  | cancelled =>
    refine ⟨by simp, ?_, names, fun other different => Or.inl (turns other different)⟩
    simpa [permits] using removed
  | granted =>
    rw [if_pos rfl] at removed
    cases interrupted with
    | true =>
      obtain ⟨count, same, onward⟩ :=
        @wakeUpNext_spec ι _
          { value := semaphore.value + 1, waiters := Turn.remove name semaphore.waiters }
          (Nat.succ_pos _)
      refine ⟨by simp, ?_, same.trans names, fun other different => ?_⟩
      · simp only [reduceCtorEq, Option.some.injEq, if_false, if_true, Bool.false_eq_true]
        rw [count]
        simp only [permits]
        omega
      · rw [← turns other different]
        exact onward other
    | false =>
      have count : left.permits + 1 = semaphore.permits := by
        simp only [permits, left_eq]
        omega
      have woken : (if 0 < left.value then left.wakeUpNext else left).permits = left.permits ∧
          (if 0 < left.value then left.wakeUpNext else left).names = left.names ∧
          ∀ other, Turn.Onward (left.turn other)
            ((if 0 < left.value then left.wakeUpNext else left).turn other) := by
        split
        · exact wakeUpNext_spec ‹_›
        · exact ⟨rfl, rfl, fun other => Or.inl rfl⟩
      simp only [reduceCtorEq, Option.some.injEq, if_false, if_true, Bool.false_eq_true]
      refine ⟨by simp, ?_, woken.2.1.trans names, fun other different => ?_⟩
      · exact (congrArg (· + 1) woken.1).trans count
      · rw [← turns other different]
        exact woken.2.2 other

end FifoSemaphore

end UniApi.Lib
