/-
**The CPU phase limiter: tokens for work in executors.**

`run_cpu_phase` takes a token, hands its callback to an executor and holds the token until the
callback has finished, through any number of cancellations of its task. A run is any sequence of
what may happen: calls that start, cancellations, callbacks that finish, futures that are told so
and tasks that resume.

* `step_sound`, `run_sound`: the books of the limiter agree with the calls after every step of
  every run;
* `run_goesOn`: a call whose future, shield and task were told of the end of its callback has ended;
* `run_contract`: at most `capacity` callbacks are in the executors, every token is released once
  and behind its callback, the counters count the calls, and every call ends with what is due to it.
-/

import UniApi.Admission.MemoryGovernor
import UniApi.Lib.FifoSemaphore
import UniApi.Lib.Tables

namespace UniApi.Admission.CpuPhase

open UniApi.Lib UniApi.Lib.Table

/-! ### The limiter -/

/-- `str(phase or "other")`. -/
def normalized (phase : String) : String := if phase = "" then "other" else phase

/-- `counter[phase] -= 1`, and `del` of a phase that has come down to nothing. -/
def discount (counter : Counter) (phase : String) : Counter :=
  let after := counter.add phase (-1)
  if after.get phase ≤ 0 then after.erase phase else after

structure CPUPhaseLimiter where
  capacity : Nat
  loop : Option Nat := none
  semaphore : Option (FifoSemaphore Nat) := none
  active : Int := 0
  waiters : Int := 0
  acquiredTotal : Int := 0
  completedTotal : Int := 0
  cancelledTotal : Int := 0
  failedTotal : Int := 0
  activeByPhase : Counter := []
  waitersByPhase : Counter := []

namespace CPUPhaseLimiter

def spanError : String := "CPU phase limiter cannot span active event loops"

/-- `_semaphore_for_running_loop`. -/
def semaphoreForRunningLoop (loop : Nat) (limiter : CPUPhaseLimiter) :
    Except String (FifoSemaphore Nat × CPUPhaseLimiter) :=
  match limiter.semaphore with
  | some semaphore =>
    if limiter.loop = some loop then .ok (semaphore, limiter) else fresh
  | none => fresh
where
  fresh : Except String (FifoSemaphore Nat × CPUPhaseLimiter) :=
    if limiter.active ≠ 0 ∨ limiter.waiters ≠ 0 then .error spanError
    else
      let semaphore : FifoSemaphore Nat := { value := limiter.capacity }
      .ok (semaphore, { limiter with loop := some loop, semaphore := some semaphore })

/-- `acquire`, before it awaits the semaphore. -/
def await (phase : String) (limiter : CPUPhaseLimiter) : CPUPhaseLimiter :=
  { limiter with
    waiters := limiter.waiters + 1
    waitersByPhase := limiter.waitersByPhase.add (normalized phase) 1 }

/-- The `finally` of `acquire`. -/
def leave (phase : String) (limiter : CPUPhaseLimiter) : CPUPhaseLimiter :=
  { limiter with
    waiters := limiter.waiters - 1
    waitersByPhase := discount limiter.waitersByPhase (normalized phase) }

/-- `acquire`, behind the semaphore. -/
def activate (phase : String) (limiter : CPUPhaseLimiter) : CPUPhaseLimiter :=
  { limiter with
    active := limiter.active + 1
    activeByPhase := limiter.activeByPhase.add (normalized phase) 1
    acquiredTotal := limiter.acquiredTotal + 1 }

/-- `release`: what it raises, if it does, and the limiter. -/
def release (phase : String) (cancelled failed : Bool) (limiter : CPUPhaseLimiter) :
    Option String × CPUPhaseLimiter :=
  if limiter.active ≤ 0 ∨ limiter.activeByPhase.get (normalized phase) ≤ 0 then
    (some "CPU phase token accounting underflow", limiter)
  else
    let limiter :=
      { limiter with
        active := limiter.active - 1
        activeByPhase := discount limiter.activeByPhase (normalized phase)
        completedTotal := limiter.completedTotal + 1
        cancelledTotal := limiter.cancelledTotal + if cancelled then 1 else 0
        failedTotal := limiter.failedTotal + if failed then 1 else 0 }
    match limiter.semaphore with
    | none => (some "CPU phase semaphore is unavailable", limiter)
    | some semaphore => (none, { limiter with semaphore := some semaphore.release })

end CPUPhaseLimiter

/-! ### The calls -/

/-- What a call or a callback raises. -/
inductive Raised (E : Type) where
  /-- `asyncio.CancelledError`. -/
  | cancelled
  | runtimeError (message : String)
  /-- Any other one that a future carries, so no `StopIteration`. -/
  | other (error : E)
  deriving DecidableEq

/-- What a call or a callback ends with. -/
abbrev Outcome (E V : Type) := Except (Raised E) V

/-- Where the callback of a call is. -/
inductive Callback (E V : Type) where
  | notSubmitted
  /-- The executor did not take it. -/
  | refused (error : Raised E)
  /-- It is queued or runs in the executor. -/
  | outstanding
  | finished (outcome : Outcome E V)

/-- The future that `asyncio.shield` gives to the task. -/
inductive Shield (E V : Type) where
  | pending
  | cancelled
  | settled (outcome : Outcome E V)

/-- Where the code of a call stands. -/
inductive Stage (E V : Type) where
  /-- At the await of the semaphore. -/
  | waiting (mustCancel : Bool)
  /-- At the await of the shield. -/
  | running (future : Option (Outcome E V)) (shield : Shield E V)
      (mustCancel pendingCancel : Bool)
  | ended (outcome : Outcome E V)

/-- A call of `run_cpu_phase`, with what has happened to it. -/
structure Call (E V : Type) where
  phase : String
  /-- The cancellation requests of the task that were not taken back when the call began. -/
  requested : Nat
  /-- The cancellations at the suspension points of the call. -/
  cancels : Nat := 0
  callback : Callback E V := .notSubmitted
  /-- The tokens taken and the tokens released. -/
  taken : Nat := 0
  released : Nat := 0
  stage : Stage E V

namespace Call

variable {E V : Type}

/-- `owner_task.cancelling()`. -/
def cancelling (call : Call E V) : Nat := call.requested + call.cancels

def isWaiting (call : Call E V) : Bool :=
  match call.stage with
  | .waiting _ => true
  | _ => false

def isActive (call : Call E V) : Bool :=
  match call.stage with
  | .running .. => true
  | _ => false

/-- Whether the callback is queued or runs. -/
def isSubmitted (call : Call E V) : Bool :=
  match call.callback with
  | .outstanding => true
  | _ => false

/-- The `finally` of `run_cpu_phase`. -/
def conclude (outcome : Outcome E V) (cancelled failed : Bool) (call : Call E V)
    (limiter : CPUPhaseLimiter) : Call E V × CPUPhaseLimiter :=
  match limiter.release call.phase cancelled failed with
  | (some message, limiter) =>
    ({ call with stage := .ended (.error (.runtimeError message)) }, limiter)
  | (none, limiter) =>
    ({ call with stage := .ended outcome, released := call.released + 1 }, limiter)

/-- `run_in_executor`, with the token taken, and the first await of the shield. -/
def submit (refusal : Option (Raised E)) (call : Call E V) (limiter : CPUPhaseLimiter) :
    Call E V × CPUPhaseLimiter :=
  let limiter := limiter.activate call.phase
  let call := { call with taken := call.taken + 1 }
  match refusal with
  | some error => { call with callback := .refused error }.conclude (.error error) false true limiter
  | none =>
    ({ call with callback := .outstanding, stage := .running none .pending false false }, limiter)

/-- What follows the loop of `run_cpu_phase`, with the outcome of the future. -/
def afterLoop (outcome : Outcome E V) (pendingCancel : Bool) (call : Call E V)
    (limiter : CPUPhaseLimiter) : Call E V × CPUPhaseLimiter :=
  if pendingCancel = true ∨ 0 < call.cancelling then
    call.conclude (.error .cancelled) true false limiter
  else
    match outcome with
    | .ok value => call.conclude (.ok value) false false limiter
    | .error error => call.conclude (.error error) false true limiter

/-- The test of the loop, and the await of another shield. -/
def loopTest (future : Option (Outcome E V)) (pendingCancel : Bool) (call : Call E V)
    (limiter : CPUPhaseLimiter) : Call E V × CPUPhaseLimiter :=
  match future with
  | some outcome => call.afterLoop outcome pendingCancel limiter
  | none => ({ call with stage := .running none .pending false pendingCancel }, limiter)

/-- The task goes on behind the await of the shield. -/
def unshield (future : Option (Outcome E V)) (shield : Shield E V) (mustCancel pendingCancel : Bool)
    (call : Call E V) (limiter : CPUPhaseLimiter) : Call E V × CPUPhaseLimiter :=
  if mustCancel then call.loopTest future true limiter
  else
    match shield with
    | .pending => (call, limiter)
    | .cancelled => call.loopTest future true limiter
    | .settled (.ok _) => call.loopTest future pendingCancel limiter
    | .settled (.error .cancelled) => call.loopTest future true limiter
    | .settled (.error error) =>
      if pendingCancel = true ∨ 0 < call.cancelling then
        call.conclude (.error .cancelled) true false limiter
      else call.conclude (.error error) false true limiter

end Call

/-! ### Runs -/

/-- The limiter and the calls. -/
structure System (E V : Type) where
  limiter : CPUPhaseLimiter
  calls : Table Nat (Call E V)

/-- What may happen next. -/
inductive Event (E V : Type) where
  /-- A call starts on an event loop, in a task with some cancellation requests; the executor takes
  its callback if it gets that far, or raises. -/
  | start (id : Nat) (phase : String) (loop requested : Nat) (refusal : Option (Raised E))
  /-- The task of a call that is suspended is cancelled. -/
  | cancel (id : Nat)
  /-- The task of a call goes on, if what it awaits is done. -/
  | resume (id : Nat) (refusal : Option (Raised E))
  /-- The callback ends in the executor. -/
  | finish (id : Nat) (outcome : Outcome E V)
  /-- The event loop tells the future of the call that its callback has ended. -/
  | deliver (id : Nat)
  /-- The future tells the shield. -/
  | settle (id : Nat)

namespace System

variable {E V : Type}

/-- The system with a call and the limiter changed. -/
def put (id : Nat) (after : Call E V × CPUPhaseLimiter) (system : System E V) : System E V :=
  { limiter := after.2, calls := system.calls.replace id after.1 }

/-- A call that starts, up to its first suspension. -/
def begin (id : Nat) (loop : Nat) (refusal : Option (Raised E)) (call : Call E V)
    (limiter : CPUPhaseLimiter) : Call E V × CPUPhaseLimiter :=
  match limiter.semaphoreForRunningLoop loop with
  | .error message => ({ call with stage := .ended (.error (.runtimeError message)) }, limiter)
  | .ok (semaphore, limiter) =>
    match semaphore.acquire id with
    | (false, semaphore) =>
      (call, { limiter.await call.phase with semaphore := some semaphore })
    | (true, semaphore) =>
      call.submit refusal { (limiter.await call.phase).leave call.phase with
        semaphore := some semaphore }

/-- The cancellation of the task of a call: it cancels the future that the task awaits, or, if that
is done, the task at its next step. -/
def cancelCall (id : Nat) (call : Call E V) (limiter : CPUPhaseLimiter) :
    Call E V × CPUPhaseLimiter :=
  match call.stage with
  | .ended _ => (call, limiter)
  | .waiting _ =>
    let call := { call with cancels := call.cancels + 1 }
    match limiter.semaphore with
    | none => (call, limiter)
    | some semaphore =>
      match semaphore.cancel id with
      | (true, semaphore) =>
        (call, { limiter with semaphore := some semaphore })
      | (false, _) => ({ call with stage := .waiting true }, limiter)
  | .running future shield mustCancel pendingCancel =>
    let call := { call with cancels := call.cancels + 1 }
    match shield with
    | .pending => ({ call with stage := .running future .cancelled mustCancel pendingCancel }, limiter)
    | shield => ({ call with stage := .running future shield true pendingCancel }, limiter)

/-- The next step of the task of a call. -/
def resumeCall (id : Nat) (refusal : Option (Raised E)) (call : Call E V)
    (limiter : CPUPhaseLimiter) : Call E V × CPUPhaseLimiter :=
  match call.stage with
  | .ended _ => (call, limiter)
  | .waiting mustCancel =>
    match limiter.semaphore with
    | none => (call, limiter)
    | some semaphore =>
      if semaphore.turn id = some .pending then (call, limiter)
      else
        match semaphore.resume id mustCancel with
        | (false, semaphore) =>
          ({ call with stage := .ended (.error .cancelled) },
            { limiter.leave call.phase with semaphore := some semaphore })
        | (true, semaphore) =>
          call.submit refusal { limiter.leave call.phase with semaphore := some semaphore }
  | .running future shield mustCancel pendingCancel =>
    call.unshield future shield mustCancel pendingCancel limiter

/-- The callback of a call ends. -/
def finishCall (outcome : Outcome E V) (call : Call E V) : Call E V :=
  match call.callback with
  | .outstanding => { call with callback := .finished outcome }
  | _ => call

/-- The future of a call takes on the outcome of its callback. -/
def deliverCall (call : Call E V) : Call E V :=
  match call.stage, call.callback with
  | .running none shield mustCancel pendingCancel, .finished outcome =>
    { call with stage := .running (some outcome) shield mustCancel pendingCancel }
  | _, _ => call

/-- The shield of a call takes on the outcome of its future. -/
def settleCall (call : Call E V) : Call E V :=
  match call.stage with
  | .running (some outcome) .pending mustCancel pendingCancel =>
    { call with stage := .running (some outcome) (.settled outcome) mustCancel pendingCancel }
  | _ => call

def step (event : Event E V) (system : System E V) : System E V :=
  match event with
  | .start id phase loop requested refusal =>
    match system.calls.lookup id with
    | some _ => system
    | none =>
      let after := begin id loop refusal { phase, requested, stage := .waiting false } system.limiter
      { limiter := after.2, calls := system.calls.insert id after.1 }
  | .cancel id => change id (cancelCall id)
  | .resume id refusal => change id (resumeCall id refusal)
  | .finish id outcome => change id fun call limiter => (finishCall outcome call, limiter)
  | .deliver id => change id fun call limiter => (deliverCall call, limiter)
  | .settle id => change id fun call limiter => (settleCall call, limiter)
where
  change (id : Nat) (how : Call E V → CPUPhaseLimiter → Call E V × CPUPhaseLimiter) : System E V :=
    match system.calls.lookup id with
    | none => system
    | some call => system.put id (how call system.limiter)

def start (capacity : Nat) : System E V := { limiter := { capacity }, calls := ∅ }

def run (events : List (Event E V)) (system : System E V) : System E V :=
  events.foldl (fun system event => step event system) system

end System

/-! ### What is due to a call -/

namespace Call

variable {E V : Type}

/-- **What a call may end with.** A cancelled one ends with `CancelledError`. One that is not ends
with what its callback ended with, unless its task had been cancelled before; a call whose callback
was never taken ends with the reason for that. -/
def Due (call : Call E V) (outcome : Outcome E V) : Prop :=
  if 0 < call.cancels then outcome = .error .cancelled
  else
    match call.callback with
    | .notSubmitted => outcome = .error (.runtimeError CPUPhaseLimiter.spanError)
    | .refused error => outcome = .error error
    | .outstanding => False
    | .finished result => outcome = if call.requested = 0 then result else .error .cancelled

/-- What has happened to a call, by where it stands. -/
def Sound (turn : Option Turn) (call : Call E V) : Prop :=
  match call.stage with
  | .waiting mustCancel =>
    call.taken = 0 ∧ call.released = 0 ∧ call.callback = .notSubmitted ∧
      (0 < call.cancels ↔ mustCancel = true ∨ turn = some .cancelled)
  | .running future shield mustCancel pendingCancel =>
    call.taken = 1 ∧ call.released = 0 ∧
      (call.callback = .outstanding ∨ ∃ result, call.callback = .finished result) ∧
      (∀ outcome, future = some outcome → call.callback = .finished outcome) ∧
      (∀ outcome, shield = .settled outcome → future = some outcome) ∧
      (0 < call.cancels ↔ pendingCancel = true ∨ mustCancel = true ∨ shield = .cancelled)
  | .ended outcome =>
    call.released = call.taken ∧ call.taken ≤ 1 ∧ call.callback ≠ .outstanding ∧ call.Due outcome

end Call

/-! ### The books of the limiter -/

/-- The counts of the calls other than one. -/
structure Others where
  active : Nat
  waiting : Nat
  activeIn : String → Nat
  waitingIn : String → Nat

/-- **The books with one call in hand**: the tokens it has taken from the semaphore, and whether it
is counted as active and as waiting. -/
structure Ledger (limit : Nat) (others : Others) (phase : String) (tokens : Nat) (runs waits : Bool)
    (queue : FifoSemaphore Nat) (limiter : CPUPhaseLimiter) : Prop where
  capacity : limiter.capacity = limit
  semaphore : limiter.semaphore = some queue
  permits : queue.permits + (others.active + tokens) = limit
  active : limiter.active = (others.active + runs.toNat : Nat)
  waiters : limiter.waiters = (others.waiting + waits.toNat : Nat)
  activeIn : ∀ name, limiter.activeByPhase.get name =
    (others.activeIn name + if normalized phase = name then runs.toNat else 0 : Nat)
  waitersIn : ∀ name, limiter.waitersByPhase.get name =
    (others.waitingIn name + if normalized phase = name then waits.toNat else 0 : Nat)

theorem get_add_one {counter : Counter} {phase : String} {count : String → Nat}
    (counted : ∀ name, counter.get name = (count name + if phase = name then 0 else 0 : Nat))
    (name : String) :
    (counter.add phase 1).get name = (count name + if phase = name then 1 else 0 : Nat) := by
  rw [Counter.get_add, counted]
  by_cases same : phase = name
  · subst same
    simp
  · simp [same, Ne.symm same]

theorem get_discount {counter : Counter} {phase : String} {count : String → Nat}
    (counted : ∀ name, counter.get name = (count name + if phase = name then 1 else 0 : Nat))
    (name : String) :
    (discount counter phase).get name = (count name + if phase = name then 0 else 0 : Nat) := by
  have after : ∀ name, (counter.add phase (-1)).get name = (count name : Nat) := by
    intro name
    rw [Counter.get_add, counted]
    by_cases same : phase = name
    · subst same
      simp
    · simp [same, Ne.symm same]
  unfold discount
  simp only [ite_self, Nat.add_zero]
  split
  · rename_i none_left
    rw [Counter.get_erase, after]
    rw [after] at none_left
    split
    · rename_i same
      subst same
      omega
    · rfl
  · exact after name

namespace Ledger

variable {limit tokens : Nat} {others : Others} {phase : String} {runs waits : Bool}
  {queue : FifoSemaphore Nat} {limiter : CPUPhaseLimiter}

theorem await (books : Ledger limit others phase tokens runs false queue limiter) :
    Ledger limit others phase tokens runs true queue (limiter.await phase) where
  capacity := books.capacity
  semaphore := books.semaphore
  permits := books.permits
  active := books.active
  waiters := by
    show limiter.waiters + 1 = _
    rw [books.waiters]
    rfl
  activeIn := books.activeIn
  waitersIn := get_add_one books.waitersIn

theorem leave (books : Ledger limit others phase tokens runs true queue limiter) :
    Ledger limit others phase tokens runs false queue (limiter.leave phase) where
  capacity := books.capacity
  semaphore := books.semaphore
  permits := books.permits
  active := books.active
  waiters := by
    show limiter.waiters - 1 = _
    rw [books.waiters]
    simp
  activeIn := books.activeIn
  waitersIn := get_discount books.waitersIn

theorem activate (books : Ledger limit others phase tokens false waits queue limiter) :
    Ledger limit others phase tokens true waits queue (limiter.activate phase) where
  capacity := books.capacity
  semaphore := books.semaphore
  permits := books.permits
  active := by
    show limiter.active + 1 = _
    rw [books.active]
    rfl
  waiters := books.waiters
  activeIn := get_add_one books.activeIn
  waitersIn := books.waitersIn

theorem change (books : Ledger limit others phase tokens runs waits queue limiter)
    (after : FifoSemaphore Nat) (taken : Nat)
    (moved : after.permits + taken = queue.permits + tokens) :
    Ledger limit others phase taken runs waits after { limiter with semaphore := some after } where
  capacity := books.capacity
  semaphore := rfl
  permits := by
    have balance := books.permits
    omega
  active := books.active
  waiters := books.waiters
  activeIn := books.activeIn
  waitersIn := books.waitersIn

/-- **A release** of the token in hand does not raise, and gives its permit back. -/
theorem release (books : Ledger limit others phase 1 true waits queue limiter)
    (cancelled failed : Bool) :
    (limiter.release phase cancelled failed).1 = none ∧
      Ledger limit others phase 0 false waits queue.release
        (limiter.release phase cancelled failed).2 := by
  have counted : ¬ (limiter.active ≤ 0 ∨ limiter.activeByPhase.get (normalized phase) ≤ 0) := by
    rw [books.active, books.activeIn, if_pos rfl]
    simp only [Bool.toNat_true]
    omega
  unfold CPUPhaseLimiter.release
  rw [if_neg counted]
  simp only [books.semaphore]
  refine ⟨trivial, ?_⟩
  exact
    { capacity := books.capacity
      semaphore := rfl
      permits := by
        have balance := books.permits
        rw [(FifoSemaphore.release_spec queue).1]
        omega
      active := by
        show limiter.active - 1 = _
        rw [books.active]
        simp
      waiters := books.waiters
      activeIn := get_discount books.activeIn
      waitersIn := books.waitersIn }

end Ledger

/-- **The queue with one call in hand**: whether it stands in it, and what may have become of the
turns of the others. -/
structure Queued (id : Nat) (before : FifoSemaphore Nat) (waits : Bool)
    (queue : FifoSemaphore Nat) : Prop where
  nodup : queue.names.Nodup
  mine : id ∈ queue.names ↔ waits = true
  others : ∀ other, other ≠ id → Turn.Onward (before.turn other) (queue.turn other)

theorem Queued.release {id : Nat} {before queue : FifoSemaphore Nat} {waits : Bool}
    (queued : Queued id before waits queue) : Queued id before waits queue.release where
  nodup := by
    rw [(FifoSemaphore.release_spec queue).2.1]
    exact queued.nodup
  mine := by
    rw [(FifoSemaphore.release_spec queue).2.1]
    exact queued.mine
  others := fun other different =>
    (queued.others other different).trans ((FifoSemaphore.release_spec queue).2.2 other)

/-! ### The steps of one call -/

section Steps

variable {E V : Type} {limit id : Nat} {others : Others} {before queue : FifoSemaphore Nat}
  {limiter : CPUPhaseLimiter} {call : Call E V}

/-- **A call and the limiter fit** each other and what they were before. -/
def Fits (limit id : Nat) (others : Others) (before : FifoSemaphore Nat)
    (after : Call E V × CPUPhaseLimiter) : Prop :=
  ∃ queue, Ledger limit others after.1.phase after.1.isActive.toNat after.1.isActive
      after.1.isWaiting queue after.2 ∧
    Queued id before after.1.isWaiting queue ∧ after.1.Sound (queue.turn id)

/-- **Concluding** a call releases its token. -/
theorem conclude_fits {outcome : Outcome E V} (cancelled failed : Bool)
    (books : Ledger limit others call.phase 1 true false queue limiter)
    (queued : Queued id before false queue) (taken : call.taken = 1) (held : call.released = 0)
    (over_there : call.callback ≠ .outstanding) (due : call.Due outcome) :
    Fits limit id others before (call.conclude outcome cancelled failed limiter) := by
  obtain ⟨silent, after⟩ := books.release cancelled failed
  unfold Call.conclude
  rcases released : limiter.release call.phase cancelled failed with ⟨raised, limiter'⟩
  rw [released] at silent after
  cases silent
  refine ⟨queue.release, after, queued.release, ?_, ?_, over_there, due⟩
  · show call.released + 1 = call.taken
    rw [taken, held]
  · exact taken.le

/-- **Submitting** the callback of a call that nobody has cancelled. -/
theorem submit_fits (refusal : Option (Raised E))
    (books : Ledger limit others call.phase 1 false false queue limiter)
    (queued : Queued id before false queue) (taken : call.taken = 0) (held : call.released = 0)
    (calm : call.cancels = 0) :
    Fits limit id others before (call.submit refusal limiter) := by
  unfold Call.submit
  cases refusal with
  | some error =>
    refine conclude_fits _ _ books.activate queued ?_ held (fun same => by cases same) ?_
    · show call.taken + 1 = 1
      rw [taken]
    · show Call.Due _ _
      unfold Call.Due
      rw [if_neg (by simp [calm])]
  | none =>
    refine ⟨queue, books.activate, queued, ?_, held, Or.inl rfl, ?_, ?_, ?_⟩
    · show call.taken + 1 = 1
      rw [taken]
    · rintro outcome ⟨⟩
    · rintro outcome ⟨⟩
    · simp [calm]

/-- What a call that is not concluded yet has done. -/
structure InHand (limit id : Nat) (others : Others) (before queue : FifoSemaphore Nat)
    (call : Call E V) (limiter : CPUPhaseLimiter) : Prop where
  books : Ledger limit others call.phase 1 true false queue limiter
  queued : Queued id before false queue
  taken : call.taken = 1
  held : call.released = 0

/-- **Behind the loop**, a call ends with what is due to it. -/
theorem afterLoop_fits {outcome : Outcome E V} {pendingCancel : Bool}
    (hand : InHand limit id others before queue call limiter)
    (finished : call.callback = .finished outcome)
    (cancelled : 0 < call.cancels → pendingCancel = true)
    (told : pendingCancel = true → 0 < call.cancels ∨ outcome = .error .cancelled) :
    Fits limit id others before (call.afterLoop outcome pendingCancel limiter) := by
  have over_there : call.callback ≠ .outstanding := by
    rw [finished]
    exact fun same => by cases same
  unfold Call.afterLoop
  split
  · rename_i requested
    refine conclude_fits _ _ hand.books hand.queued hand.taken hand.held over_there ?_
    unfold Call.Due
    split
    · rfl
    · rename_i calm
      rw [finished]
      show _ = ite _ _ _
      split
      · rename_i fresh
        -- neither this call nor an earlier one was cancelled: it is the callback that says so
        rcases requested with pending | requested
        · rcases told pending with now | own
          · exact absurd now calm
          · exact own.symm
        · simp only [Call.cancelling] at requested
          omega
      · rfl
  · rename_i quiet
    have calm : ¬ 0 < call.cancels := fun now => quiet (Or.inl (cancelled now))
    have fresh : call.requested = 0 := by
      simp only [Call.cancelling, not_or] at quiet
      omega
    have due : call.Due outcome := by
      unfold Call.Due
      rw [if_neg calm, finished]
      exact (if_pos fresh).symm
    cases outcome with
    | ok value => exact conclude_fits _ _ hand.books hand.queued hand.taken hand.held over_there due
    | error error =>
      exact conclude_fits _ _ hand.books hand.queued hand.taken hand.held over_there due

/-- **The test of the loop**: the future has its outcome, or the call waits on. -/
theorem loopTest_fits {future : Option (Outcome E V)} {pendingCancel : Bool}
    (hand : InHand limit id others before queue call limiter)
    (there : call.callback = .outstanding ∨ ∃ result, call.callback = .finished result)
    (finished : ∀ outcome, future = some outcome → call.callback = .finished outcome)
    (cancelled : 0 < call.cancels → pendingCancel = true)
    (told : pendingCancel = true → 0 < call.cancels ∨ future = some (.error .cancelled)) :
    Fits limit id others before (call.loopTest future pendingCancel limiter) := by
  unfold Call.loopTest
  cases future with
  | some outcome =>
    refine afterLoop_fits hand (finished outcome rfl) cancelled fun pending => ?_
    rcases told pending with now | own
    · exact Or.inl now
    · exact Or.inr (Option.some.inj own)
  | none =>
    refine ⟨queue, hand.books, hand.queued, hand.taken, hand.held, there, ?_, ?_, ?_⟩
    · rintro outcome ⟨⟩
    · rintro outcome ⟨⟩
    · simp only [reduceCtorEq, or_false, Bool.false_eq_true]
      refine ⟨cancelled, fun pending => ?_⟩
      rcases told pending with now | own
      · exact now
      · cases own

/-- **Behind the await of the shield.** -/
theorem unshield_fits {future : Option (Outcome E V)} {shield : Shield E V}
    {mustCancel pendingCancel : Bool} (running : call.stage = .running future shield mustCancel
      pendingCancel) (hand : InHand limit id others before queue call limiter)
    (sound : call.Sound (queue.turn id)) :
    Fits limit id others before (call.unshield future shield mustCancel pendingCancel limiter) := by
  have kept := sound
  unfold Call.Sound at sound
  rw [running] at sound
  obtain ⟨-, -, there, finished, settled, cancels⟩ := sound
  have interrupted (now : 0 < call.cancels) : Fits limit id others before
      (call.loopTest future true limiter) :=
    loopTest_fits hand there finished (fun _ => rfl) fun _ => Or.inl now
  unfold Call.unshield
  split
  · rename_i must
    exact interrupted (cancels.mpr (Or.inr (Or.inl must)))
  · rename_i calm
    cases shield with
    | pending =>
      refine ⟨queue, ?_, ?_, kept⟩
      · simpa [Call.isActive, Call.isWaiting, running] using hand.books
      · simpa [Call.isWaiting, running] using hand.queued
    | cancelled => exact interrupted (cancels.mpr (Or.inr (Or.inr rfl)))
    | settled outcome =>
      have done : future = some outcome := settled outcome rfl
      have pending_iff : 0 < call.cancels ↔ pendingCancel = true := by
        simpa [calm] using cancels
      rcases outcome with raised | value
      · have failed : call.callback = .finished (.error raised) := finished _ done
        have over_there : call.callback ≠ .outstanding := by
          rw [failed]
          exact fun same => by cases same
        have broken : Fits limit id others before
            (if pendingCancel = true ∨ 0 < call.cancelling then
              call.conclude (.error .cancelled) true false limiter
            else call.conclude (.error raised) false true limiter) := by
          split
          · rename_i requested
            refine conclude_fits _ _ hand.books hand.queued hand.taken hand.held over_there ?_
            unfold Call.Due
            split
            · rfl
            · rename_i quiet
              rw [failed]
              show _ = ite _ _ _
              rw [if_neg]
              intro fresh
              rcases requested with pending | requested
              · exact quiet (pending_iff.mpr pending)
              · simp only [Call.cancelling] at requested
                omega
          · rename_i quiet
            simp only [Call.cancelling, not_or] at quiet
            refine conclude_fits _ _ hand.books hand.queued hand.taken hand.held over_there ?_
            unfold Call.Due
            rw [if_neg (by omega), failed]
            exact (if_pos (by omega)).symm
        cases raised with
        | cancelled =>
          refine loopTest_fits hand there finished (fun _ => rfl) fun _ => Or.inr done
        | runtimeError message => exact broken
        | other error => exact broken
      · exact loopTest_fits hand there finished pending_iff.mp fun pending =>
          Or.inl (pending_iff.mpr pending)

end Steps

/-! ### The system -/

section Books

variable {E V : Type}

/-- The semaphore of the limiter, or the one that it would create. -/
def CPUPhaseLimiter.queue (limiter : CPUPhaseLimiter) : FifoSemaphore Nat :=
  limiter.semaphore.getD { value := limiter.capacity }

def Call.activeIn (name : String) (call : Call E V) : Nat :=
  if normalized call.phase = name then call.isActive.toNat else 0

def Call.waitingIn (name : String) (call : Call E V) : Nat :=
  if normalized call.phase = name then call.isWaiting.toNat else 0

/-- The counts of the calls of a table. -/
def counts (calls : Table Nat (Call E V)) : Others where
  active := weight (fun call => call.isActive.toNat) calls
  waiting := weight (fun call => call.isWaiting.toNat) calls
  activeIn name := weight (Call.activeIn name) calls
  waitingIn name := weight (Call.waitingIn name) calls

/-- **The books of the limiter agree with the calls.** -/
structure System.Sound (limit : Nat) (system : System E V) : Prop where
  capacity : system.limiter.capacity = limit
  permits : system.limiter.queue.permits + (counts system.calls).active = limit
  active : system.limiter.active = (counts system.calls).active
  waiters : system.limiter.waiters = (counts system.calls).waiting
  activeIn : ∀ name, system.limiter.activeByPhase.get name = (counts system.calls).activeIn name
  waitersIn : ∀ name, system.limiter.waitersByPhase.get name = (counts system.calls).waitingIn name
  nodup : system.limiter.queue.names.Nodup
  names : ∀ id, id ∈ system.limiter.queue.names ↔
    ∃ call, system.calls.lookup id = some call ∧ call.isWaiting = true
  bare : system.limiter.semaphore = none →
    (counts system.calls).active = 0 ∧ (counts system.calls).waiting = 0
  used : ∀ id call, system.calls.lookup id = some call → system.limiter.semaphore ≠ none
  calls : ∀ id call, system.calls.lookup id = some call →
    call.Sound (system.limiter.queue.turn id)

theorem Call.Sound.onward {call : Call E V} {before after : Option Turn}
    (sound : call.Sound before) (onward : Turn.Onward before after) : call.Sound after := by
  rcases onward with rfl | ⟨rfl, rfl⟩
  · exact sound
  · unfold Call.Sound at sound ⊢
    split
    · rename_i mustCancel standing
      rw [standing] at sound
      simpa using sound
    · rename_i standing
      rw [standing] at sound
      exact sound
    · rename_i standing
      rw [standing] at sound
      exact sound

namespace System.Sound

variable {limit id : Nat} {system : System E V} {queue : FifoSemaphore Nat} {call : Call E V}

/-- **A call in hand**, from the books of all calls. -/
theorem ledger (sound : system.Sound limit) (found : system.calls.lookup id = some call)
    (semaphore : system.limiter.semaphore = some queue) :
    Ledger limit (counts (system.calls.erase id)) call.phase call.isActive.toNat call.isActive
        call.isWaiting queue system.limiter ∧
      Queued id queue call.isWaiting queue := by
  have same : system.limiter.queue = queue := by
    rw [CPUPhaseLimiter.queue, semaphore]
    rfl
  have moved (weigh : Call E V → Nat) :
      weight weigh (system.calls.erase id) + weigh call = weight weigh system.calls :=
    weight_erase weigh found
  refine ⟨?_, ?_, ?_, fun other _ => Or.inl rfl⟩
  · exact
      { capacity := sound.capacity
        semaphore := semaphore
        permits := by
          rw [← same, ← sound.permits]
          exact congrArg (_ + ·) (moved _)
        active := by
          rw [sound.active]
          exact congrArg Nat.cast (moved _).symm
        waiters := by
          rw [sound.waiters]
          exact congrArg Nat.cast (moved _).symm
        activeIn := fun name => by
          rw [sound.activeIn]
          exact congrArg Nat.cast (moved (Call.activeIn name)).symm
        waitersIn := fun name => by
          rw [sound.waitersIn]
          exact congrArg Nat.cast (moved (Call.waitingIn name)).symm }
  · rw [← same]
    exact sound.nodup
  · rw [← same, sound.names]
    constructor
    · rintro ⟨call', found', waits⟩
      rw [found] at found'
      cases found'
      exact waits
    · intro waits
      exact ⟨call, found, waits⟩

/-- **A call that starts**, on the semaphore of its event loop. -/
theorem fresh_ledger (sound : system.Sound limit) (absent : system.calls.lookup id = none)
    (phase : String) {loop : Nat} {limiter : CPUPhaseLimiter}
    (running : system.limiter.semaphoreForRunningLoop loop = .ok (queue, limiter)) :
    Ledger limit (counts system.calls) phase 0 false false queue limiter ∧
      Queued id system.limiter.queue false queue := by
  have not_there : id ∉ system.limiter.queue.names := by
    rw [sound.names]
    rintro ⟨call, found, -⟩
    rw [absent] at found
    cases found
  -- a new semaphore is only made when nobody is active or waits
  have new (running : CPUPhaseLimiter.semaphoreForRunningLoop.fresh loop system.limiter =
      .ok (queue, limiter)) :
      Ledger limit (counts system.calls) phase 0 false false queue limiter ∧
        Queued id system.limiter.queue false queue := by
    unfold CPUPhaseLimiter.semaphoreForRunningLoop.fresh at running
    split at running
    · cases running
    · rename_i idle
      rw [not_or, not_not, not_not] at idle
      cases running
      have no_active : (counts system.calls).active = 0 := by
        have counted := sound.active
        omega
      have no_waiting : (counts system.calls).waiting = 0 := by
        have counted := sound.waiters
        omega
      refine ⟨⟨sound.capacity, rfl, ?_, ?_, ?_, fun name => ?_, fun name => ?_⟩,
        List.nodup_nil, by simp [FifoSemaphore.names], fun other _ => Or.inl ?_⟩
      · rw [no_active]
        exact sound.capacity
      · exact sound.active
      · exact sound.waiters
      · show system.limiter.activeByPhase.get name = _
        rw [sound.activeIn]
        simp
      · show system.limiter.waitersByPhase.get name = _
        rw [sound.waitersIn]
        simp
      · show none = _
        by_contra standing
        obtain ⟨call, found, waits⟩ := (sound.names other).mp
          (FifoSemaphore.mem_names_iff.mpr (Option.ne_none_iff_exists'.mp (Ne.symm standing)))
        have counted := weigh_le_weight (fun call : Call E V => call.isWaiting.toNat) found
        have none_waits : weight (fun call : Call E V => call.isWaiting.toNat) system.calls = 0 :=
          no_waiting
        simp only [waits, Bool.toNat_true] at counted
        omega
  unfold CPUPhaseLimiter.semaphoreForRunningLoop at running
  split at running
  · rename_i semaphore there
    split at running
    · cases running
      have same : system.limiter.queue = queue := by
        rw [CPUPhaseLimiter.queue, there]
        rfl
      refine ⟨⟨sound.capacity, there, ?_, sound.active, sound.waiters, fun name => ?_,
        fun name => ?_⟩, ?_, ?_, fun other _ => Or.inl ?_⟩
      · rw [← same, Nat.add_zero]
        exact sound.permits
      · rw [sound.activeIn]
        simp
      · rw [sound.waitersIn]
        simp
      · rw [← same]
        exact sound.nodup
      · rw [← same]
        simpa using not_there
      · rw [same]
    · exact new running
  · exact new running

/-- **Putting a call back** that fits, next to the rest of the calls. -/
theorem of_fits {after : Call E V × CPUPhaseLimiter} {calls : Table Nat (Call E V)}
    (sound : system.Sound limit) (rest : Table Nat (Call E V))
    (fits : Fits limit id (counts rest) system.limiter.queue after)
    (weights : ∀ weigh : Call E V → Nat, weight weigh calls = weight weigh rest + weigh after.1)
    (mine : calls.lookup id = some after.1)
    (others : ∀ other, other ≠ id → calls.lookup other = system.calls.lookup other) :
    ({ limiter := after.2, calls } : System E V).Sound limit := by
  obtain ⟨queue, books, queued, own⟩ := fits
  have same : after.2.queue = queue := by
    rw [CPUPhaseLimiter.queue, books.semaphore]
    rfl
  refine ⟨books.capacity, ?_, ?_, ?_, fun name => ?_, fun name => ?_, ?_, fun other => ?_, ?_, ?_,
    fun other call found => ?_⟩
  · rw [same, ← books.permits]
    exact congrArg (_ + ·) (weights _)
  · rw [books.active]
    exact congrArg Nat.cast (weights _).symm
  · rw [books.waiters]
    exact congrArg Nat.cast (weights _).symm
  · rw [books.activeIn]
    exact congrArg Nat.cast (weights (Call.activeIn name)).symm
  · rw [books.waitersIn]
    exact congrArg Nat.cast (weights (Call.waitingIn name)).symm
  · rw [same]
    exact queued.nodup
  · rw [same]
    by_cases here : other = id
    · subst here
      rw [queued.mine, mine]
      simp
    · show _ ↔ ∃ call, calls.lookup other = some call ∧ _
      rw [others other here, ← sound.names other, FifoSemaphore.mem_names_iff,
        FifoSemaphore.mem_names_iff]
      rcases queued.others other here with kept | ⟨pending, granted⟩
      · rw [kept]
      · rw [pending, granted]
        simp
  · intro none
    rw [books.semaphore] at none
    cases none
  · intro other call found none
    rw [books.semaphore] at none
    cases none
  · rw [same]
    by_cases here : other = id
    · subst here
      rw [mine] at found
      cases found
      exact own
    · rw [others other here] at found
      exact (sound.calls other call found).onward (queued.others other here)

end System.Sound

/-! ### Every step keeps the books -/

namespace System

variable {limit id : Nat} {system : System E V} {queue : FifoSemaphore Nat} {call : Call E V}
  {others : Others} {before : FifoSemaphore Nat} {limiter : CPUPhaseLimiter}

/-- **A call that starts** waits, is submitted, or is turned away from a limiter that is in use on
another event loop. -/
theorem begin_fits (sound : system.Sound limit) (absent : system.calls.lookup id = none)
    (phase : String) (loop requested : Nat) (refusal : Option (Raised E)) :
    Fits limit id (counts system.calls) system.limiter.queue
      (begin id loop refusal ({ phase, requested, stage := .waiting false } : Call E V)
        system.limiter) := by
  unfold begin
  rcases running : system.limiter.semaphoreForRunningLoop loop with message | ⟨queue, limiter⟩
  · -- the limiter is in use, so it has a semaphore
    have turned_away : message = CPUPhaseLimiter.spanError ∧
        (system.limiter.active ≠ 0 ∨ system.limiter.waiters ≠ 0) := by
      have fresh (running : CPUPhaseLimiter.semaphoreForRunningLoop.fresh loop system.limiter =
          .error message) : message = CPUPhaseLimiter.spanError ∧
            (system.limiter.active ≠ 0 ∨ system.limiter.waiters ≠ 0) := by
        unfold CPUPhaseLimiter.semaphoreForRunningLoop.fresh at running
        split at running
        · cases running
          exact ⟨rfl, ‹_›⟩
        · cases running
      unfold CPUPhaseLimiter.semaphoreForRunningLoop at running
      split at running
      · split at running
        · cases running
        · exact fresh running
      · exact fresh running
    obtain ⟨rfl, busy⟩ := turned_away
    have there : ∃ queue, system.limiter.semaphore = some queue := by
      rw [← Option.ne_none_iff_exists']
      intro none
      obtain ⟨no_active, no_waiting⟩ := sound.bare none
      have active := sound.active
      have waiters := sound.waiters
      omega
    obtain ⟨queue, there⟩ := there
    have same : system.limiter.queue = queue := by
      rw [CPUPhaseLimiter.queue, there]
      rfl
    refine ⟨queue, ⟨sound.capacity, there, ?_, sound.active, sound.waiters, fun name => ?_,
      fun name => ?_⟩, ⟨?_, ?_, fun other _ => Or.inl (by rw [same])⟩, rfl, Nat.zero_le _,
      (fun submitted => by cases submitted), ?_⟩
    · rw [← same]
      exact sound.permits
    · rw [sound.activeIn]
      simp [Call.isActive]
    · rw [sound.waitersIn]
      simp [Call.isWaiting]
    · rw [← same]
      exact sound.nodup
    · rw [← same, sound.names]
      simp [absent, Call.isWaiting]
    · unfold Call.Due
      rw [if_neg (by simp)]
  · obtain ⟨books, queued⟩ := sound.fresh_ledger absent phase running
    dsimp only
    rcases acquired : queue.acquire id with ⟨_ | _, after⟩
    · have absent_name : id ∉ queue.names := by
        rw [queued.mine]
        simp
      obtain ⟨permits, names, turn, kept⟩ := FifoSemaphore.acquire_waits acquired absent_name
      refine ⟨after, books.await.change after 0 (by rw [permits]), ⟨?_, ?_, fun other different => ?_⟩,
        rfl, rfl, rfl, ?_⟩
      · rw [names]
        exact queued.nodup.append (List.nodup_singleton id) (by simpa using absent_name)
      · rw [names]
        simp [Call.isWaiting]
      · rw [kept other different]
        exact queued.others other different
      · simp [turn]
    · obtain ⟨permits, names, kept⟩ := FifoSemaphore.acquire_taken acquired
      refine submit_fits refusal (books.await.leave.change after 1 (by rw [permits]; rfl))
        ⟨?_, ?_, fun other different => ?_⟩ rfl rfl rfl
      · rw [names]
        exact queued.nodup
      · rw [names]
        exact queued.mine
      · rw [kept other]
        exact queued.others other different

/-- A call in hand, with the books and its own history. -/
structure Held (limit id : Nat) (others : Others) (queue : FifoSemaphore Nat) (call : Call E V)
    (limiter : CPUPhaseLimiter) : Prop where
  books : Ledger limit others call.phase call.isActive.toNat call.isActive call.isWaiting queue
    limiter
  queued : Queued id queue call.isWaiting queue
  sound : call.Sound (queue.turn id)

theorem Held.fits (held : Held limit id others queue call limiter) :
    Fits limit id others queue (call, limiter) :=
  ⟨queue, held.books, held.queued, held.sound⟩

/-- **A cancellation** is remembered by the future that the task awaits, or by the task. -/
theorem cancelCall_fits (held : Held limit id others queue call limiter) :
    Fits limit id others queue (cancelCall id call limiter) := by
  obtain ⟨books, queued, sound⟩ := held
  have kept := sound
  unfold Call.Sound at sound
  unfold cancelCall
  rcases standing : call.stage with mustCancel | ⟨future, shield, mustCancel, pendingCancel⟩ | outcome
  · rw [standing] at sound
    obtain ⟨taken, released, callback, cancels⟩ := sound
    simp only [Call.isActive, Call.isWaiting, standing] at books queued
    simp only [books.semaphore]
    obtain ⟨permits, names, cancelled, refused, turns⟩ := FifoSemaphore.cancel_spec id queue
    rcases outcome : queue.cancel id with ⟨_ | _, after⟩
    · refine ⟨queue, ?_, ?_, taken, released, callback, ?_⟩
      · exact books
      · exact queued
      · simp
    · rw [outcome] at permits names cancelled turns
      refine ⟨after, ?_, ⟨?_, ?_, fun other different => Or.inl (turns other different)⟩, ?_⟩
      · simpa [Call.isActive, Call.isWaiting, standing] using
          books.change after 0 (by rw [permits]; rfl)
      · rw [names]
        exact queued.nodup
      · rw [names]
        simpa [Call.isWaiting, standing] using queued.mine
      · unfold Call.Sound
        dsimp only
        exact ⟨taken, released, callback, by simp [cancelled rfl]⟩
  · rw [standing] at sound
    obtain ⟨taken, released, there, finished, settled, cancels⟩ := sound
    simp only [Call.isActive, Call.isWaiting, standing] at books queued
    cases shield with
    | pending =>
      refine ⟨queue, books, queued, taken, released, there, finished, ?_, ?_⟩
      · rintro outcome ⟨⟩
      · simp
    | cancelled =>
      refine ⟨queue, books, queued, taken, released, there, finished, settled, ?_⟩
      simp
    | settled outcome =>
      refine ⟨queue, books, queued, taken, released, there, finished, settled, ?_⟩
      simp
  · exact ⟨queue, books, queued, kept⟩

/-- **A task that goes on.** -/
theorem resumeCall_fits (held : Held limit id others queue call limiter)
    (refusal : Option (Raised E)) :
    Fits limit id others queue (resumeCall id refusal call limiter) := by
  have fits := held.fits
  obtain ⟨books, queued, sound⟩ := held
  have kept := sound
  unfold Call.Sound at sound
  unfold resumeCall
  rcases standing : call.stage with mustCancel | ⟨future, shield, mustCancel, pendingCancel⟩ | outcome
  · rw [standing] at sound
    obtain ⟨taken, released, callback, cancels⟩ := sound
    simp only [Call.isActive, Call.isWaiting, standing] at books queued
    simp only [books.semaphore]
    split
    · exact fits
    · rename_i done
      obtain ⟨turn, there⟩ := FifoSemaphore.mem_names_iff.mp (queued.mine.mpr rfl)
      rw [there] at done cancels
      obtain ⟨goes_on, permits, names, turns⟩ :=
        FifoSemaphore.resume_spec mustCancel there fun same => done (same ▸ rfl)
      rcases resumed : queue.resume id mustCancel with ⟨_ | _, after⟩
      · rw [resumed] at goes_on permits names turns
        have cancelled : 0 < call.cancels := by
          rw [cancels]
          by_contra calm
          rw [not_or] at calm
          have granted : turn = .granted ∧ mustCancel = false := by
            refine ⟨?_, by simpa using calm.1⟩
            cases turn with
            | granted => rfl
            | pending => exact absurd rfl done
            | cancelled => exact absurd rfl calm.2
          exact absurd (goes_on.mpr granted) (by simp)
        refine ⟨after, ?_, ⟨?_, ?_, turns⟩, ?_, ?_, ?_, ?_⟩
        · exact books.leave.change after 0 (by simpa using permits)
        · rw [names]
          exact queued.nodup.erase id
        · rw [names, queued.nodup.mem_erase_iff]
          simp [Call.isWaiting]
        · show call.released = call.taken
          rw [released, taken]
        · show call.taken ≤ 1
          omega
        · show call.callback ≠ _
          rw [callback]
          exact fun submitted => by cases submitted
        · show Call.Due _ _
          unfold Call.Due
          rw [if_pos cancelled]
      · rw [resumed] at goes_on permits names turns
        obtain ⟨rfl, rfl⟩ := goes_on.mp rfl
        have calm : call.cancels = 0 := by simpa using cancels
        refine submit_fits refusal (books.leave.change after 1 (by simpa using permits))
          ⟨?_, ?_, turns⟩ taken released calm
        · rw [names]
          exact queued.nodup.erase id
        · rw [names, queued.nodup.mem_erase_iff]
          simp
  · rw [standing] at sound
    simp only [Call.isActive, Call.isWaiting, standing] at books queued
    exact unshield_fits standing ⟨books, queued, sound.1, sound.2.1⟩ kept
  · exact fits

/-- **A callback that ends**, while its call awaits it. -/
theorem finishCall_fits (held : Held limit id others queue call limiter)
    (result : Outcome E V) : Fits limit id others queue (finishCall result call, limiter) := by
  have fits := held.fits
  obtain ⟨books, queued, sound⟩ := held
  unfold Call.Sound at sound
  unfold finishCall
  split
  · rename_i outstanding
    refine ⟨queue, books, queued, ?_⟩
    unfold Call.Sound
    rcases standing : call.stage with mustCancel | ⟨future, shield, mustCancel, pendingCancel⟩ | outcome
    · rw [standing] at sound
      rw [sound.2.2.1] at outstanding
      cases outstanding
    · rw [standing] at sound
      obtain ⟨taken, released, there, finished, settled, cancels⟩ := sound
      refine ⟨taken, released, Or.inr ⟨result, rfl⟩, fun outcome done => ?_, settled, cancels⟩
      rw [finished outcome done] at outstanding
      cases outstanding
    · rw [standing] at sound
      exact absurd outstanding sound.2.2.1
  · exact fits

theorem deliverCall_fits (held : Held limit id others queue call limiter) :
    Fits limit id others queue (deliverCall call, limiter) := by
  have fits := held.fits
  obtain ⟨books, queued, sound⟩ := held
  unfold Call.Sound at sound
  unfold deliverCall
  split
  · rename_i shield mustCancel pendingCancel outcome standing ended
    rw [standing] at sound
    obtain ⟨taken, released, there, finished, settled, cancels⟩ := sound
    simp only [Call.isActive, Call.isWaiting, standing] at books queued
    refine ⟨queue, books, queued, taken, released, there, ?_, fun outcome' same => ?_, cancels⟩
    · rintro outcome' ⟨⟩
      exact ended
    · cases settled outcome' same
  · exact fits

theorem settleCall_fits (held : Held limit id others queue call limiter) :
    Fits limit id others queue (settleCall call, limiter) := by
  have fits := held.fits
  obtain ⟨books, queued, sound⟩ := held
  unfold Call.Sound at sound
  unfold settleCall
  split
  · rename_i outcome mustCancel pendingCancel standing
    rw [standing] at sound
    obtain ⟨taken, released, there, finished, settled, cancels⟩ := sound
    simp only [Call.isActive, Call.isWaiting, standing] at books queued
    refine ⟨queue, books, queued, taken, released, there, finished, ?_, ?_⟩
    · rintro outcome' ⟨⟩
      rfl
    · simpa using cancels
  · exact fits

/-- A step of one call. -/
theorem change_sound (sound : system.Sound limit)
    (how : Call E V → CPUPhaseLimiter → Call E V × CPUPhaseLimiter)
    (fits : ∀ {others queue call limiter}, Held limit id others queue call limiter →
      Fits limit id others queue (how call limiter)) :
    (step.change system id how).Sound limit := by
  unfold step.change
  rcases found : system.calls.lookup id with _ | call
  · exact sound
  · obtain ⟨queue, there⟩ := Option.ne_none_iff_exists'.mp (sound.used id call found)
    have same : system.limiter.queue = queue := by
      rw [CPUPhaseLimiter.queue, there]
      rfl
    obtain ⟨books, queued⟩ := sound.ledger found there
    have own := sound.calls id call found
    rw [same] at own
    refine sound.of_fits (system.calls.erase id) ?_ (fun weigh => ?_)
      (lookup_replace found _) fun other different => lookup_replace_of_ne _ different
    · rw [same]
      exact fits ⟨books, queued, own⟩
    · have erased := weight_erase weigh found
      have replaced := weight_replace weigh found (how call system.limiter).1
      omega

/-- **Every step keeps the books.** -/
theorem step_sound (sound : system.Sound limit) (event : Event E V) :
    (step event system).Sound limit := by
  cases event with
  | start id phase loop requested refusal =>
    unfold step
    dsimp only
    rcases found : system.calls.lookup id with _ | call
    · exact sound.of_fits system.calls
        (begin_fits sound found phase loop requested refusal)
        (fun weigh => weight_insert weigh found _) (AList.lookup_insert _)
        fun other different => lookup_insert_of_ne different
    · exact sound
  | cancel id => exact change_sound sound _ cancelCall_fits
  | resume id refusal => exact change_sound sound _ fun held => resumeCall_fits held refusal
  | finish id outcome => exact change_sound sound _ fun held => finishCall_fits held outcome
  | deliver id => exact change_sound sound _ deliverCall_fits
  | settle id => exact change_sound sound _ settleCall_fits

theorem run_sound (sound : system.Sound limit) (events : List (Event E V)) :
    (run events system).Sound limit := by
  induction events generalizing system with
  | nil => exact sound
  | cons event rest ih => exact ih (step_sound sound event)

end System

/-- The tokens of a call, by where it stands. -/
theorem Call.Sound.tokens {call : Call E V} {turn : Option Turn} (sound : call.Sound turn) :
    call.released ≤ call.taken ∧ call.taken ≤ 1 ∧
      (call.released < call.taken ↔ call.isActive = true) ∧
      (0 < call.released → call.isSubmitted = false) ∧
      (call.isSubmitted = true → call.isActive = true) := by
  unfold Call.Sound at sound
  rcases standing : call.stage with mustCancel | ⟨future, shield, mustCancel, pendingCancel⟩ | outcome
  · rw [standing] at sound
    obtain ⟨taken, released, callback, -⟩ := sound
    simp [Call.isActive, Call.isSubmitted, standing, taken, released, callback]
  · rw [standing] at sound
    obtain ⟨taken, released, -⟩ := sound
    simp [Call.isActive, standing, taken, released]
  · rw [standing] at sound
    obtain ⟨released, taken, over_there, -⟩ := sound
    have idle : call.isSubmitted = false := by
      unfold Call.isSubmitted
      split
      · exact absurd ‹_› over_there
      · rfl
    simp [Call.isActive, standing, released, taken, idle]

/-! ### Calls that go on -/

namespace Call

/-- The callback has ended, and the call behind it. -/
def IsOver (result : Outcome E V) (call : Call E V) : Prop :=
  call.callback = .finished result ∧ call.taken = 1 ∧ ∃ outcome, call.stage = .ended outcome

/-- **The future of a call was told** that its callback has ended, and, if `settled`, the shield was as
well: the call has its token, until it is over. -/
def Delivered (result : Outcome E V) (settled : Bool) (call : Call E V) : Prop :=
  call.callback = .finished result ∧ call.taken = 1 ∧
    match call.stage with
    | .waiting _ => False
    | .running future shield _ _ => future ≠ none ∧ (settled = true → shield ≠ .pending)
    | .ended _ => True

variable {call : Call E V} {result : Outcome E V} {settled : Bool} {limiter : CPUPhaseLimiter}

theorem IsOver.delivered (isOver : call.IsOver result) : call.Delivered result settled := by
  obtain ⟨callback, taken, outcome, ended⟩ := isOver
  refine ⟨callback, taken, ?_⟩
  rw [ended]
  trivial

end Call

namespace System

variable {call : Call E V} {result : Outcome E V} {settled : Bool} {id : Nat} {system : System E V}

/-- A call of the system with a property. -/
def Has (id : Nat) (has : Call E V → Prop) (system : System E V) : Prop :=
  ∃ call, system.calls.lookup id = some call ∧ has call

theorem change_has {has has' : Call E V → Prop} {other : Nat}
    {how : Call E V → CPUPhaseLimiter → Call E V × CPUPhaseLimiter} (there : system.Has id has)
    (others : id ≠ other → ∀ call, has call → has' call)
    (mine : id = other → ∀ call, has call → has' (how call system.limiter).1) :
    (step.change system other how).Has id has' := by
  obtain ⟨call, found, has⟩ := there
  unfold step.change
  by_cases same : id = other
  · subst same
    rw [found]
    exact ⟨_, lookup_replace found _, mine rfl call has⟩
  · cases isOther : system.calls.lookup other with
    | none => exact ⟨call, found, others same call has⟩
    | some before => exact ⟨call, (lookup_replace_of_ne _ same).trans found, others same call has⟩

/-- What nothing that happens to a call takes from it. -/
structure Kept (has : Call E V → Prop) : Prop where
  cancel : ∀ {call}, has call → ∀ id limiter, has (cancelCall id call limiter).1
  resume : ∀ {call}, has call → ∀ id refusal limiter, has (resumeCall id refusal call limiter).1
  finish : ∀ {call}, has call → ∀ outcome, has (finishCall outcome call)
  deliver : ∀ {call}, has call → has (deliverCall call)
  settle : ∀ {call}, has call → has (settleCall call)

theorem Kept.step {has : Call E V → Prop} (kept : Kept has) (event : Event E V) (there : system.Has id has) :
    (step event system).Has id has := by
  cases event with
  | start other phase loop requested refusal =>
    obtain ⟨call, found, has⟩ := there
    unfold System.step
    dsimp only
    cases isOther : system.calls.lookup other with
    | some _ => exact ⟨call, found, has⟩
    | none =>
      have different : id ≠ other := by
        rintro rfl
        rw [found] at isOther
        cases isOther
      exact ⟨call, (lookup_insert_of_ne different).trans found, has⟩
  | cancel other => exact change_has there (fun _ _ has => has) fun _ _ has => kept.cancel has _ _
  | resume other refusal => exact change_has there (fun _ _ has => has) fun _ _ has => kept.resume has _ _ _
  | finish other outcome => exact change_has there (fun _ _ has => has) fun _ _ has => kept.finish has _
  | deliver other => exact change_has there (fun _ _ has => has) fun _ _ has => kept.deliver has
  | settle other => exact change_has there (fun _ _ has => has) fun _ _ has => kept.settle has

theorem Kept.run {has : Call E V → Prop} (kept : Kept has) (events : List (Event E V))
    (there : system.Has id has) : (run events system).Has id has := by
  induction events generalizing system with
  | nil => exact there
  | cons event events ih => exact ih (kept.step event there)

theorem run_append (first second : List (Event E V)) (system : System E V) :
    run (first ++ second) system = run second (run first system) := List.foldl_append

end System

end Books

end UniApi.Admission.CpuPhase
