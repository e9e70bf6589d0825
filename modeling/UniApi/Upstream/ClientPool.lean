/-
**`ClientPool`: the leases of the managed client operations.**

An operation obtains a lease of the gate or of the network governor and is counted in the pool. Each of
its awaits may raise, by an error or by the cancellation of the operation, and the other operations of
the pool go on meanwhile. Tasks that are shielded run to their end before their caller goes on.

* `Leased`: how far a lease is given back, and what its operation still counts in the pool;
* `release_spec`, `markConnected_spec`: the two release points;
* `run_settled`, `run_owing`: the operations one by one;
* `accounted_iff`: exactly when a lease is given back once and nothing stays counted.
-/

import Mathlib.Algebra.Order.Group.Nat
import Mathlib.Data.Option.Basic
import UniApi.Lib.PyText
import UniApi.Lib.Raise

namespace UniApi.Upstream

open UniApi.Lib

/-! ### The pool and one operation -/

/-- What the pool counts: its active operations, the begin and the end calls of its gauge, and the
attempts of the governor or the slots of the gate. -/
structure Counts where
  activeOperations : Nat
  begun : Nat
  ended : Nat
  pending : Nat

/-- Other operations change their share of the counts. -/
def Counts.turn (share next pool : Counts) : Counts where
  activeOperations := pool.activeOperations - share.activeOperations + next.activeOperations
  begun := pool.begun - share.begun + next.begun
  ended := pool.ended - share.ended + next.ended
  pending := pool.pending - share.pending + next.pending

/-- The result of a task. -/
abbrev TaskResult := Except Unit Unit

/-- One operation of a managed client, with its lease, its binding and its context. -/
structure Operation where
  resourceMode : Bool
  pool : Counts
  /-- The share of the other operations, from one await to the next. -/
  others : Nat → Counts
  /-- Whether an await returns. -/
  answers : Nat → Bool
  awaits : Nat
  callbackStarted : Bool
  /-- `_released` of the gate lease. -/
  gateReleased : Bool
  connectedTask : Option TaskResult
  releaseTask : Option TaskResult
  /-- `response.aclose` is the binding's. -/
  patched : Bool
  closeTask : Option TaskResult
  abortTask : Option TaskResult
  exitTask : Option TaskResult
  /-- The response head has arrived. -/
  responded : Bool
  /-- The operation has failed, or was refused. -/
  isOver : Bool
  /-- For the account: leases obtained and released, and releases before the head or the end. -/
  obtained : Nat
  returned : Nat
  early : Nat

/-- A call of an operation, in which exceptions are not told apart. -/
abbrev Managed := Raise Unit Operation

namespace Operation

/-- An operation that starts. -/
def start (resourceMode : Bool) (others : Nat → Counts) (answers : Nat → Bool) : Operation where
  resourceMode := resourceMode
  pool := others 0
  others := others
  answers := answers
  awaits := 0
  callbackStarted := false
  gateReleased := false
  connectedTask := none
  releaseTask := none
  patched := false
  closeTask := none
  abortTask := none
  exitTask := none
  responded := false
  isOver := false
  obtained := 0
  returned := 0
  early := 0

/-- The other operations until an await is over. -/
def wait (operation : Operation) : Operation :=
  { operation with
    pool := (operation.others operation.awaits).turn (operation.others (operation.awaits + 1)) operation.pool
    awaits := operation.awaits + 1 }

end Operation

/-- `await` of code that is not the pool's, and of a shielded task that is done. -/
def suspend : Managed Unit := fun operation =>
  (if operation.answers operation.awaits then .ok () else .error (), operation.wait)

/-- The operation fails. -/
def fail : Managed Unit := fun operation => (.error (), { operation with isOver := true })

/-! ### Leases -/

/-- The gate lease is released. -/
def Operation.giveBack (operation : Operation) : Operation :=
  { operation with
    pool := { operation.pool with pending := operation.pool.pending - 1 }
    gateReleased := true
    returned := operation.returned + 1
    early := operation.early + (if operation.responded || operation.isOver then 0 else 1) }

/-- `release` of an `AdmissionLease` or a `NetworkResourceLease`. -/
def releaseGate : Managed Unit := fun operation =>
  if operation.gateReleased then (.ok (), operation)
  else if operation.pool.pending = 0 then (.error (), operation)
  else (.ok (), operation.giveBack)

/-- `release_active_operation`. -/
def releaseActiveOperation : Managed Unit := Raise.modify fun operation =>
  { operation with
    pool := { operation.pool with
      activeOperations := if operation.resourceMode then operation.pool.activeOperations - 1
        else operation.pool.activeOperations
      ended := if operation.callbackStarted then operation.pool.ended + 1 else operation.pool.ended } }

/-- The task of `mark_connected`. -/
def connect : Managed Unit :=
  Raise.once Operation.connectedTask (fun result operation => { operation with connectedTask := some result })
    releaseGate

/-- `mark_connected`. -/
def markConnected : Managed Unit := do
  let operation ← Raise.get
  if operation.resourceMode then
    connect
    suspend

/-- `_release_once`. -/
def releaseOnce : Managed Unit := do
  let operation ← Raise.get
  if operation.resourceMode then Raise.tryFinally connect releaseActiveOperation
  else
    releaseActiveOperation
    releaseGate

/-- The task of `release`. -/
def runRelease : Managed Unit :=
  Raise.once Operation.releaseTask (fun result operation => { operation with releaseTask := some result })
    releaseOnce

/-- `_UpstreamLease.release`. -/
def release : Managed Unit := do
  runRelease
  suspend

/-- What an operation finds at the pool: whether the lifecycle lock is taken before the operation is
cancelled, whether the pool is closing, whether the gate or the governor grants a lease, whether the pool
was closed meanwhile, and whether the begin call of the gauge succeeds. -/
structure Acquisition where
  locked : Bool
  closing : Bool
  granted : Bool
  closed : Bool
  callback : Bool

/-- The operation obtains a lease. -/
def Acquisition.obtains (acquisition : Acquisition) : Bool :=
  acquisition.locked && !acquisition.closing && acquisition.granted && !acquisition.closed

/-- `_acquire_upstream`. -/
def acquireUpstream (acquisition : Acquisition) : Managed Unit := do
  Raise.modify Operation.wait
  if !acquisition.locked || acquisition.closing || !acquisition.granted then fail
  else
    Raise.modify fun operation => { operation with
      pool := { operation.pool with pending := operation.pool.pending + 1 }
      obtained := operation.obtained + 1 }
    if acquisition.closed then
      Raise.modify fun operation => { operation with isOver := true }
      releaseGate
      suspend
      fail
    else
      Raise.modify fun operation => { operation with
        pool := { operation.pool with
          begun := if acquisition.callback then operation.pool.begun + 1 else operation.pool.begun
          activeOperations := if operation.resourceMode then operation.pool.activeOperations + 1
            else operation.pool.activeOperations }
        callbackStarted := acquisition.callback }

/-! ### Responses -/

/-- A response head. -/
structure ResponseHead where
  statusCode : Nat
  contentEncoding : Option PyText
  isClosed : Bool

/-- `_validate_stream_content_encoding`. -/
def validateStreamContentEncoding (response : ResponseHead) : Managed Unit :=
  let contentEncoding := PyText.strip (response.contentEncoding.getD [])
  if 200 ≤ response.statusCode ∧ response.statusCode < 300 ∧ contentEncoding ≠ [] ∧
      contentEncoding.map PyText.lowerAscii ≠ "identity".toList.map Char.toNat then fail
  else pure ()

/-- The HTTP library waits for a response head. -/
def awaitHead : Managed Unit := fun operation =>
  if operation.answers operation.awaits then (.ok (), { operation.wait with responded := true })
  else (.error (), { operation.wait with isOver := true })

/-- `_close_once`. -/
def closeOnce : Managed Unit :=
  Raise.tryFinally suspend do
    Raise.modify fun operation => { operation with patched := false }
    runRelease

/-- `_abort_once`. -/
def abortOnce : Managed Unit := do
  Raise.modify fun operation => { operation with patched := false }
  runRelease

/-- `response.aclose`, of the response or of its binding. -/
def aclose : Managed Unit := do
  let operation ← Raise.get
  if operation.patched then
    Raise.once Operation.closeTask (fun result operation => { operation with closeTask := some result })
      closeOnce
    suspend
  else suspend

/-- `abort_transport`. -/
def abortTransport : Managed Unit := do
  Raise.once Operation.abortTask (fun result operation => { operation with abortTask := some result })
    abortOnce
  suspend

/-- What a caller does with a response. -/
inductive Use where
  | aclose
  | abortTransport

def Use.run : Use → Managed Unit
  | .aclose => Upstream.aclose
  | .abortTransport => Upstream.abortTransport

/-- A caller's uses. What one raises does not keep it from the next. -/
def useAll : List Use → Managed Unit
  | [] => pure ()
  | use :: rest => do
    Raise.attempt use.run
    useAll rest

/-! ### Operations -/

/-- Request arguments: whether `httpx.Headers` and `dict` accept the headers and the extensions, and
whether the method that they are passed to accepts them. -/
structure Arguments where
  headers : Bool
  extensions : Bool
  accepted : Bool

/-- The library takes the arguments. -/
def Arguments.valid (arguments : Arguments) : Bool :=
  arguments.headers && arguments.extensions && arguments.accepted

/-- `_force_identity_accept_encoding` and `inject_transport_trace`. -/
def prepare (arguments : Arguments) : Managed Unit :=
  if arguments.headers && arguments.extensions then pure () else fail

/-- `_client.stream(...)`. -/
def stream (arguments : Arguments) : Managed Unit := if arguments.accepted then pure () else fail

/-- `_ManagedStreamContext.__aenter__`. -/
def aenter (acquisition : Acquisition) (arguments : Arguments) (response : ResponseHead) : Managed Unit := do
  acquireUpstream acquisition
  prepare arguments
  stream arguments
  Raise.tryExcept
    (do
      awaitHead
      markConnected
      Raise.modify fun operation => { operation with patched := true }
      validateStreamContentEncoding response
      if response.isClosed then aclose)
    fun error => do
      Raise.tryFinally
        (do
          let operation ← Raise.get
          if operation.responded then
            -- the transport is closed, and the raw context is left
            suspend
            suspend)
        release
      Raise.throw error

/-- `_exit_once`. -/
def exitOnce : Managed Unit :=
  Raise.tryFinally
    (do
      suspend
      suspend)
    runRelease

/-- `_ManagedStreamContext.__aexit__`. -/
def aexit : Managed Unit := do
  Raise.once Operation.exitTask (fun result operation => { operation with exitTask := some result }) exitOnce
  suspend

/-- `_non_stream_request`. The body is buffered by `_buffer_bounded_response`. -/
def nonStreamRequest (acquisition : Acquisition) (arguments : Arguments) : Managed Unit := do
  prepare arguments
  acquireUpstream acquisition
  Raise.tryFinally
    (do
      stream arguments
      awaitHead
      Raise.tryFinally
        (do
          markConnected
          suspend)
        -- the raw context is left
        suspend)
    release

/-- `send`. -/
def send (acquisition : Acquisition) (arguments : Arguments) (response : ResponseHead) (streaming : Bool) :
    Managed Unit := do
  prepare arguments
  acquireUpstream acquisition
  Raise.tryExcept
    (do
      stream arguments
      awaitHead
      markConnected)
    fun error => do
      release
      Raise.throw error
  if streaming then
    Raise.modify fun operation => { operation with patched := true }
    Raise.tryExcept (validateStreamContentEncoding response) fun error => do
      Raise.tryFinally suspend release
      Raise.throw error
    if response.isClosed then aclose
  else Raise.tryFinally suspend (Raise.tryFinally aclose release)

/-- The operations, with what their callers do. A streaming response is used at least once, and a context
is left. -/
inductive ManagedCall where
  | stream (uses : List Use)
  | request
  | send
  | sendStreaming (first : Use) (rest : List Use)

def ManagedCall.run (acquisition : Acquisition) (arguments : Arguments) (response : ResponseHead) :
    ManagedCall → Managed Unit
  | .stream uses => do
    aenter acquisition arguments response
    useAll uses
    aexit
  | .request => nonStreamRequest acquisition arguments
  | .send => Upstream.send acquisition arguments response false
  | .sendStreaming first rest => do
    Upstream.send acquisition arguments response true
    useAll (first :: rest)

/-! ### The account -/

/-- What an operation counts in the pool, beside the share of the others, and its leases. -/
structure Accounts (pool share : Counts) (leases : Nat × Nat × Nat)
    (active begun ended pending obtained returned : Nat) : Prop where
  active : pool.activeOperations = share.activeOperations + active
  begun : pool.begun = share.begun + begun
  ended : pool.ended = share.ended + ended
  pending : pool.pending = share.pending + pending
  leases : leases = (obtained, returned, 0)

namespace Operation

variable {operation : Operation} {active begun ended pending obtained returned : Nat}

/-- The accounts of an operation. -/
abbrev Account (operation : Operation) : Nat → Nat → Nat → Nat → Nat → Nat → Prop :=
  Accounts operation.pool (operation.others operation.awaits)
    (operation.obtained, operation.returned, operation.early)

/-- The response head has arrived, or the operation is over. -/
def Reached (operation : Operation) : Prop := operation.responded = true ∨ operation.isOver = true

/-- Nothing is given back yet. -/
def Owing (operation : Operation) : Prop :=
  operation.gateReleased = false ∧ operation.connectedTask = none ∧ operation.releaseTask = none ∧
    operation.Account operation.resourceMode.toNat operation.callbackStarted.toNat 0 1 1 0

/-- The network lease is given back, and the operation is active. -/
def Connected (operation : Operation) : Prop :=
  operation.resourceMode = true ∧ operation.connectedTask = some (.ok ()) ∧ operation.releaseTask = none ∧
    operation.Account 1 operation.callbackStarted.toNat 0 0 1 1

/-- Everything is given back. -/
def Released (operation : Operation) : Prop :=
  operation.releaseTask = some (.ok ()) ∧
    operation.Account 0 operation.callbackStarted.toNat operation.callbackStarted.toNat 0 1 1

/-- No task of a binding or of a context is there. -/
def Unused (operation : Operation) : Prop :=
  operation.closeTask = none ∧ operation.abortTask = none ∧ operation.exitTask = none

/-- A lease that may be given back. -/
def Leased (operation : Operation) : Prop :=
  operation.Released ∨ operation.Reached ∧ (operation.Owing ∨ operation.Connected)

/-- A response is bound to its lease, which its first use gives back. -/
def Bound (operation : Operation) : Prop :=
  operation.Released ∨ operation.Leased ∧ operation.patched = true ∧ operation.Unused

/-- Nothing of an operation is counted, and its lease, if it had one, is given back. -/
def Settled (operation : Operation) : Prop :=
  ∃ calls leases, leases ≤ 1 ∧ operation.Account 0 calls calls 0 leases leases

/-- An operation before its lease. -/
def Fresh (operation : Operation) : Prop :=
  operation.gateReleased = false ∧ operation.connectedTask = none ∧ operation.releaseTask = none ∧
    operation.Unused ∧ operation.Account 0 0 0 0 0 0

theorem Released.settled (released : operation.Released) : operation.Settled :=
  ⟨_, 1, Nat.le_refl 1, released.2⟩

theorem Fresh.settled (fresh : operation.Fresh) : operation.Settled :=
  ⟨0, 0, Nat.zero_le 1, fresh.2.2.2.2⟩

theorem Bound.leased (bound : operation.Bound) : operation.Leased := by
  rcases bound with released | ⟨leased, _⟩
  · exact Or.inl released
  · exact leased

theorem Account.wait (account : operation.Account active begun ended pending obtained returned) :
    operation.wait.Account active begun ended pending obtained returned where
  active := by simp [Operation.wait, Counts.turn, account.active, Nat.add_comm]
  begun := by simp [Operation.wait, Counts.turn, account.begun, Nat.add_comm]
  ended := by simp [Operation.wait, Counts.turn, account.ended, Nat.add_comm]
  pending := by simp [Operation.wait, Counts.turn, account.pending, Nat.add_comm]
  leases := account.leases

theorem Owing.wait (owing : operation.Owing) : operation.wait.Owing :=
  ⟨owing.1, owing.2.1, owing.2.2.1, owing.2.2.2.wait⟩

theorem Connected.wait (connected : operation.Connected) : operation.wait.Connected :=
  ⟨connected.1, connected.2.1, connected.2.2.1, connected.2.2.2.wait⟩

theorem Released.wait (released : operation.Released) : operation.wait.Released :=
  ⟨released.1, released.2.wait⟩

theorem Leased.wait (leased : operation.Leased) : operation.wait.Leased := by
  rcases leased with released | ⟨reached, owing | connected⟩
  · exact Or.inl released.wait
  · exact Or.inr ⟨reached, Or.inl owing.wait⟩
  · exact Or.inr ⟨reached, Or.inr connected.wait⟩

end Operation

open Operation

/-! ### Releasing -/

/-- An await may raise, and keeps what the other operations do not touch. -/
theorem suspend_spec {post : Operation → Prop} (stable : ∀ operation, post operation → post operation.wait) :
    Raise.Spec post suspend (fun _ => post) fun _ => post := by
  intro operation holds
  rw [suspend]
  split
  · exact stable operation holds
  · exact stable operation holds

theorem suspend_released : Raise.Spec Released suspend (fun _ => Released) fun _ => Released :=
  suspend_spec fun _ => Released.wait

theorem suspend_leased : Raise.Spec Leased suspend (fun _ => Leased) fun _ => Leased :=
  suspend_spec fun _ => Leased.wait

variable {operation : Operation} {acquisition : Acquisition} {arguments : Arguments}

theorem releaseGate_eq {active begun ended : Nat}
    (free : operation.gateReleased = false) (account : operation.Account active begun ended 1 1 0) :
    releaseGate operation = (.ok (), operation.giveBack) := by
  have counted : operation.pool.pending ≠ 0 := by
    rw [account.pending]
    exact Nat.succ_ne_zero _
  rw [releaseGate, free, if_neg Bool.false_ne_true, if_neg counted]

theorem account_giveBack {active begun ended : Nat} (reached : operation.Reached)
    (account : operation.Account active begun ended 1 1 0) :
    operation.giveBack.Account active begun ended 0 1 1 where
  active := account.active
  begun := account.begun
  ended := account.ended
  pending := by simp [giveBack, account.pending]
  leases := by
    have onTime : (operation.responded || operation.isOver) = true := (Bool.or_eq_true _ _).mpr reached
    have leases := account.leases
    simp only [Prod.mk.injEq] at leases
    simp [giveBack, leases, onTime]

/-- The end call of the gauge follows its begin call. -/
theorem account_releaseActiveOperation {pending returned : Nat}
    (account : operation.Account operation.resourceMode.toNat operation.callbackStarted.toNat 0 pending 1
      returned) :
    (releaseActiveOperation operation).2.Account 0 operation.callbackStarted.toNat
      operation.callbackStarted.toNat pending 1 returned where
  active := by
    have active := account.active
    cases mode : operation.resourceMode
    · simpa [releaseActiveOperation, mode] using active
    · simp [releaseActiveOperation, mode, active]
  begun := account.begun
  ended := by
    have ended := account.ended
    cases started : operation.callbackStarted
    · simpa [releaseActiveOperation, started] using ended
    · simp [releaseActiveOperation, started, ended]
  pending := account.pending
  leases := account.leases

theorem connect_eq (fresh : operation.connectedTask = none)
    (free : operation.gateReleased = false) {active begun ended : Nat}
    (account : operation.Account active begun ended 1 1 0) :
    connect operation = (.ok (), { operation.giveBack with connectedTask := some (.ok ()) }) := by
  simp only [connect, Raise.once, fresh, releaseGate_eq free account]

theorem releaseOnce_owing (reached : operation.Reached) (owing : operation.Owing) :
    ∃ after, releaseOnce operation = (.ok (), after) ∧
      after.Account 0 after.callbackStarted.toNat after.callbackStarted.toNat 0 1 1 := by
  obtain ⟨free, fresh, _, account⟩ := owing
  have left := account_releaseActiveOperation account
  cases mode : operation.resourceMode
  · refine ⟨(releaseActiveOperation operation).2.giveBack, ?_, account_giveBack reached left⟩
    have free' : (releaseActiveOperation operation).2.gateReleased = false := free
    simp only [releaseOnce, Raise.bind_apply, Raise.get_apply, mode, Bool.false_eq_true, if_false]
    exact releaseGate_eq free' left
  · have given := account_giveBack reached account
    refine ⟨(releaseActiveOperation { operation.giveBack with connectedTask := some (.ok ()) }).2, ?_,
      account_releaseActiveOperation given⟩
    simp only [releaseOnce, Raise.bind_apply, Raise.get_apply, mode, if_true, Raise.tryFinally,
      connect_eq fresh free account]
    rfl

theorem releaseOnce_connected (connected : operation.Connected) :
    ∃ after, releaseOnce operation = (.ok (), after) ∧
      after.Account 0 after.callbackStarted.toNat after.callbackStarted.toNat 0 1 1 := by
  obtain ⟨mode, done, _, account⟩ := connected
  have counted : operation.Account operation.resourceMode.toNat operation.callbackStarted.toNat 0 0 1 1 := by
    rw [mode]
    exact account
  refine ⟨(releaseActiveOperation operation).2, ?_, account_releaseActiveOperation counted⟩
  simp only [releaseOnce, Raise.bind_apply, Raise.get_apply, mode, if_true, Raise.tryFinally, connect,
    Raise.once, done]
  rfl

/-- **The final release point.** -/
theorem runRelease_spec : Raise.Spec Leased runRelease (fun _ => Released) fun _ _ => False := by
  refine Raise.Spec.once (fun operation outcome leased done => ?_) fun operation ⟨leased, fresh⟩ => ?_
  · rcases leased with released | ⟨_, owing | connected⟩
    · obtain rfl := Option.some_injective _ (released.1.symm.trans done)
      exact released
    · exact absurd (owing.2.2.1.symm.trans done) (by simp)
    · exact absurd (connected.2.2.1.symm.trans done) (by simp)
  · rcases leased with released | ⟨reached, owing | connected⟩
    · exact absurd (released.1.symm.trans fresh) (by simp)
    · obtain ⟨after, ran, account⟩ := releaseOnce_owing reached owing
      rw [ran]
      exact ⟨rfl, account⟩
    · obtain ⟨after, ran, account⟩ := releaseOnce_connected connected
      rw [ran]
      exact ⟨rfl, account⟩

theorem release_spec : Raise.Spec Leased release (fun _ => Released) fun _ => Released :=
  Raise.Spec.bind (fun _ => Released) (runRelease_spec.raising fun _ _ => False.elim)
    fun _ => suspend_released

/-- **The release point at the response head.** -/
theorem markConnected_spec :
    Raise.Spec (fun operation => operation.responded = true ∧ operation.Owing ∧ operation.Unused)
      markConnected (fun _ operation => operation.Leased ∧ operation.Unused) fun _ => Leased := by
  refine Raise.Spec.bind_get fun operation ⟨responded, owing, unused⟩ => ?_
  refine Raise.Spec.ite (fun mode => ?_) fun mode => ?_
  · have suspended : Raise.Spec (fun operation => operation.Leased ∧ operation.Unused) suspend
        (fun _ operation => operation.Leased ∧ operation.Unused) _ :=
      suspend_spec fun _ ⟨leased, unused⟩ => ⟨leased.wait, unused⟩
    refine Raise.Spec.bind (fun _ operation => operation.Leased ∧ operation.Unused)
      (fun seen same => ?_) fun _ => suspended.raising fun _ _ => And.left
    obtain ⟨free, fresh, pending, account⟩ := owing
    have given := account_giveBack (Or.inl responded) account
    rw [mode] at given
    rw [same, connect_eq fresh free account]
    exact ⟨Or.inr ⟨Or.inl responded, Or.inr ⟨mode, rfl, pending, given⟩⟩, unused⟩
  · exact fun seen same => same ▸ ⟨Or.inr ⟨Or.inl responded, Or.inl owing⟩, unused⟩

/-! ### Responses and contexts -/

theorem closeOnce_spec : Raise.Spec Leased closeOnce (fun _ => Released) fun _ => Released := by
  refine Raise.Spec.tryFinally Leased suspend_leased ?_
  refine Raise.Spec.bind (fun _ => Leased) (Raise.Spec.modify fun _ leased => leased) fun _ => ?_
  exact runRelease_spec.raising fun _ _ => False.elim

theorem abortOnce_spec : Raise.Spec Leased abortOnce (fun _ => Released) fun _ => Released :=
  Raise.Spec.bind (fun _ => Leased) (Raise.Spec.modify fun _ leased => leased) fun _ =>
    runRelease_spec.raising fun _ _ => False.elim

theorem exitOnce_spec : Raise.Spec Leased exitOnce (fun _ => Released) fun _ => Released := by
  refine Raise.Spec.tryFinally Leased ?_ (runRelease_spec.raising fun _ _ => False.elim)
  exact Raise.Spec.bind (fun _ => Leased) suspend_leased fun _ =>
    suspend_leased

/-- A task that releases, and the await of its caller. -/
theorem once_spec {result : Operation → Option TaskResult} {keep : TaskResult → Operation → Operation}
    {task : Managed Unit} (releases : Raise.Spec Leased task (fun _ => Released) fun _ => Released)
    (keeps : ∀ outcome operation, operation.Released → (keep outcome operation).Released) :
    Raise.Spec (fun operation => operation.Released ∨ operation.Leased ∧ result operation = none)
      (do
        Raise.once result keep task
        suspend) (fun _ => Released) fun _ => Released := by
  refine Raise.Spec.bind (fun _ => Released) ?_ fun _ => suspend_released
  refine Raise.Spec.once (fun operation outcome start done => ?_) ?_
  · rcases start with released | ⟨_, fresh⟩
    · rcases outcome with _ | _
      · exact released
      · exact released
    · exact absurd (fresh.symm.trans done) (by simp)
  · refine releases.weaken (fun operation start => ?_) (fun _ _ => keeps _ _) fun _ _ => keeps _ _
    rcases start.1 with released | ⟨leased, _⟩
    · exact Or.inl released
    · exact leased

theorem aclose_spec : Raise.Spec Bound aclose (fun _ => Released) fun _ => Released := by
  refine Raise.Spec.bind_get fun operation bound => ?_
  refine Raise.Spec.ite (fun patched => ?_) fun unpatched => ?_
  · refine Raise.Spec.weaken (once_spec closeOnce_spec ?_) (fun seen same => ?_)
      (fun _ _ released => released) fun _ _ released => released
    · exact fun _ _ released => released
    subst same
    rcases bound with released | ⟨leased, _, unused⟩
    · exact Or.inl released
    · exact Or.inr ⟨leased, unused.1⟩
  · refine suspend_released.weaken (fun seen same => ?_) (fun _ _ => id) fun _ _ => id
    subst same
    rcases bound with released | ⟨_, patched, _⟩
    · exact released
    · exact absurd patched unpatched

theorem aclose_leased :
    Raise.Spec (fun operation => operation.Leased ∧ operation.Unused) aclose (fun _ => Leased)
      fun _ => Leased := by
  refine Raise.Spec.bind_get fun operation ⟨leased, unused⟩ => ?_
  refine Raise.Spec.ite (fun patched => ?_) fun unpatched => suspend_leased.at leased
  refine Raise.Spec.weaken (once_spec closeOnce_spec ?_) (fun seen same => ?_) (fun _ _ => Or.inl)
    fun _ _ => Or.inl
  · exact fun _ _ released => released
  · subst same
    exact Or.inr ⟨leased, unused.1⟩

theorem use_spec (use : Use) : Raise.Spec Bound use.run (fun _ => Released) fun _ => Released := by
  rcases use with _ | _
  · exact aclose_spec
  · refine Raise.Spec.weaken (once_spec abortOnce_spec ?_) (fun operation bound => ?_)
      (fun _ _ released => released) fun _ _ released => released
    · exact fun _ _ released => released
    rcases bound with released | ⟨leased, _, unused⟩
    · exact Or.inl released
    · exact Or.inr ⟨leased, unused.2.1⟩

theorem aexit_spec : Raise.Spec Bound aexit (fun _ => Released) fun _ => Released := by
  refine Raise.Spec.weaken (once_spec exitOnce_spec ?_) (fun operation bound => ?_)
    (fun _ _ released => released) fun _ _ released => released
  · exact fun _ _ released => released
  rcases bound with released | ⟨leased, _, unused⟩
  · exact Or.inl released
  · exact Or.inr ⟨leased, unused.2.2⟩

/-- **Any uses of a response** leave it bound, and one gives its lease back. -/
theorem useAll_spec (uses : List Use) {fails : Unit → Operation → Prop} :
    Raise.Spec Bound (useAll uses) (fun _ => Bound) fails := by
  induction uses with
  | nil => exact Raise.Spec.pure fun _ => id
  | cons use rest ih =>
    exact Raise.Spec.bind (fun _ => Released) (Raise.Spec.attempt (use_spec use)) fun _ =>
      ih.weaken (fun _ => Or.inl) (fun _ _ => id) fun _ _ => id

theorem useAll_released (uses : List Use) {fails : Unit → Operation → Prop} :
    Raise.Spec Released (useAll uses) (fun _ => Released) fails := by
  induction uses with
  | nil => exact Raise.Spec.pure fun _ => id
  | cons use rest ih =>
    refine Raise.Spec.bind (fun _ => Released) (Raise.Spec.attempt ?_) fun _ => ih
    exact (use_spec use).weaken (fun _ => Or.inl) (fun _ _ => id) fun _ _ => id

/-! ### Operations one by one -/

theorem fail_spec {pre : Operation → Prop} {post : Unit → Operation → Prop} {fails : Operation → Prop}
    (fails_over : ∀ operation, pre operation → fails { operation with isOver := true }) :
    Raise.Spec pre fail post fun _ => fails :=
  fun operation start => fails_over operation start

theorem leased_over (leased : operation.Leased) :
    Operation.Leased { operation with isOver := true } := by
  rcases leased with released | ⟨_, lease⟩
  · exact Or.inl released
  · exact Or.inr ⟨Or.inr rfl, lease⟩

theorem account_obtained (account : operation.Account 0 0 0 0 0 0) :
    Operation.Account { operation with
      pool := { operation.pool with pending := operation.pool.pending + 1 }
      obtained := operation.obtained + 1 } 0 0 0 1 1 0 where
  active := account.active
  begun := account.begun
  ended := account.ended
  pending := by simp [account.pending]
  leases := by
    have leases := account.leases
    simp only [Prod.mk.injEq] at leases
    simp [leases]

/-- A lease of a pool that was closed meanwhile is given back at once. -/
theorem refuse_spec : Raise.Spec
    (fun operation => operation.gateReleased = false ∧ operation.Account 0 0 0 1 1 0)
    (do
      Raise.modify fun operation => { operation with isOver := true }
      releaseGate
      suspend
      fail) (fun _ _ => False) fun _ => Settled := by
  have suspended : Raise.Spec Settled suspend (fun _ => Settled) fun _ => Settled :=
    suspend_spec fun _ ⟨calls, leases, one, account⟩ => ⟨calls, leases, one, account.wait⟩
  refine Raise.Spec.bind (fun _ operation => operation.Reached ∧ operation.gateReleased = false ∧
    operation.Account 0 0 0 1 1 0) (Raise.Spec.modify fun _ start => ⟨Or.inr rfl, start⟩) fun _ => ?_
  refine Raise.Spec.bind (fun _ => Settled) (fun operation ⟨reached, free, account⟩ => ?_) fun _ =>
    Raise.Spec.bind (fun _ => Settled) suspended fun _ => fail_spec fun _ settled => settled
  rw [releaseGate_eq free account]
  exact ⟨0, 1, Nat.le_refl 1, account_giveBack reached account⟩

/-- **Acquiring** gives a lease, or leaves nothing. -/
theorem acquireUpstream_spec (acquisition : Acquisition) :
    Raise.Spec Fresh (acquireUpstream acquisition)
      (fun _ operation => acquisition.obtains = true ∧ operation.Owing ∧ operation.Unused)
      fun _ operation => acquisition.obtains = false ∧ operation.Settled := by
  refine Raise.Spec.bind (fun _ => Fresh) (Raise.Spec.modify fun operation fresh => ?_) fun _ => ?_
  · exact ⟨fresh.1, fresh.2.1, fresh.2.2.1, fresh.2.2.2.1, fresh.2.2.2.2.wait⟩
  refine Raise.Spec.ite (fun refused => fail_spec fun operation fresh => ?_) fun taken => ?_
  · refine ⟨?_, fresh.settled⟩
    cases obtains : acquisition.obtains
    · rfl
    · simp only [Acquisition.obtains, Bool.and_eq_true, Bool.not_eq_true'] at obtains
      simp [obtains] at refused
  refine Raise.Spec.bind (fun _ operation => operation.gateReleased = false ∧
    operation.connectedTask = none ∧ operation.releaseTask = none ∧ operation.Unused ∧
      operation.Account 0 0 0 1 1 0) (Raise.Spec.modify fun operation fresh => ?_) fun _ => ?_
  · obtain ⟨free, connected, released, unused, account⟩ := fresh
    exact ⟨free, connected, released, unused, account_obtained account⟩
  refine Raise.Spec.ite (fun closed => ?_) fun opened => ?_
  · exact (refuse_spec).weaken (fun _ granted => ⟨granted.1, granted.2.2.2.2⟩) (fun _ _ => False.elim)
      fun _ _ settled => ⟨by simp [Acquisition.obtains, closed], settled⟩
  · refine Raise.Spec.modify fun operation ⟨free, connected, released, unused, account⟩ => ?_
    refine ⟨?_, ⟨free, connected, released, ?_⟩, unused⟩
    · simp only [Bool.or_eq_true, Bool.not_eq_true', not_or, Bool.not_eq_false] at taken
      simp [Acquisition.obtains, taken, opened]
    · refine ⟨?_, ?_, account.ended, account.pending, account.leases⟩
      · have active := account.active
        cases mode : operation.resourceMode <;> simp [active]
      · have begun := account.begun
        cases called : acquisition.callback <;> simp [begun]

theorem awaitHead_spec :
    Raise.Spec (fun operation => operation.Owing ∧ operation.Unused) awaitHead
      (fun _ operation => operation.responded = true ∧ operation.Owing ∧ operation.Unused)
      fun _ => Leased := by
  intro operation ⟨owing, unused⟩
  rw [awaitHead]
  split
  · exact ⟨rfl, owing.wait, unused⟩
  · exact Or.inr ⟨Or.inr rfl, Or.inl owing.wait⟩

theorem stream_spec (arguments : Arguments) :
    Raise.Spec (fun operation => operation.Owing ∧ operation.Unused) (stream arguments)
      (fun _ operation => operation.Owing ∧ operation.Unused) fun _ => Leased :=
  Raise.Spec.ite (fun _ => Raise.Spec.pure fun _ => id) fun _ =>
    fail_spec fun _ start => Or.inr ⟨Or.inr rfl, Or.inl start.1⟩

theorem prepare_spec (arguments : Arguments) :
    Raise.Spec Fresh (prepare arguments) (fun _ => Fresh) fun _ => Settled :=
  Raise.Spec.ite (fun _ => Raise.Spec.pure fun _ => id) fun _ => fail_spec fun _ fresh => fresh.settled

theorem validate_spec (response : ResponseHead) :
    Raise.Spec Bound (validateStreamContentEncoding response) (fun _ => Bound) fun _ => Leased :=
  Raise.Spec.ite (fun _ => fail_spec fun _ bound => leased_over bound.leased) fun _ =>
    Raise.Spec.pure fun _ => id

theorem closed_spec (response : ResponseHead) :
    Raise.Spec Bound (do if response.isClosed then aclose) (fun _ => Bound) fun _ => Released :=
  Raise.Spec.ite (fun _ => aclose_spec.returning fun _ _ => Or.inl) fun _ => Raise.Spec.pure fun _ => id

theorem bind_spec :
    Raise.Spec (fun operation => operation.Leased ∧ operation.Unused)
      (Raise.modify fun operation => { operation with patched := true } : Managed Unit)
      (fun _ => Bound) fun _ => Leased :=
  Raise.Spec.modify fun _ ⟨leased, unused⟩ => Or.inr ⟨leased, rfl, unused⟩

theorem enter_spec (response : ResponseHead) :
    Raise.Spec (fun operation => operation.Owing ∧ operation.Unused)
      (Raise.tryExcept
        (do
          awaitHead
          markConnected
          Raise.modify fun operation => { operation with patched := true }
          validateStreamContentEncoding response
          if response.isClosed then aclose)
        fun error => do
          Raise.tryFinally
            (do
              let operation ← Raise.get
              if operation.responded then
                suspend
                suspend)
            release
          Raise.throw error) (fun _ => Bound) fun _ => Settled := by
  refine Raise.Spec.tryExcept (fun _ => Leased) ?_ fun error => ?_
  · refine Raise.Spec.bind _ awaitHead_spec fun _ => Raise.Spec.bind _ markConnected_spec fun _ =>
      Raise.Spec.bind _ bind_spec fun _ => Raise.Spec.bind _ (validate_spec response) fun _ => ?_
    exact (closed_spec response).raising fun _ _ => Or.inl
  · refine Raise.Spec.bind (fun _ => Released) ?_ fun _ => Raise.Spec.throw fun _ => Released.settled
    refine (Raise.Spec.tryFinally Leased ?_ release_spec).raising fun _ _ => Released.settled
    refine Raise.Spec.bind_get fun operation leased => ?_
    have left := Raise.Spec.bind _ suspend_leased fun _ => suspend_leased
    exact Raise.Spec.ite (fun _ => left.at leased) fun _ => Raise.Spec.pure fun _ same => same ▸ leased

theorem aenter_spec (valid : arguments.valid = true) (response : ResponseHead) :
    Raise.Spec Fresh (aenter acquisition arguments response) (fun _ => Bound) fun _ => Settled := by
  simp only [Arguments.valid, Bool.and_eq_true] at valid
  refine Raise.Spec.bind (fun _ operation => operation.Owing ∧ operation.Unused)
    ((acquireUpstream_spec acquisition).weaken (fun _ => id) (fun _ _ => And.right) fun _ _ => And.right)
    fun _ => ?_
  refine Raise.Spec.bind (fun _ operation => operation.Owing ∧ operation.Unused) ?_ fun _ =>
    Raise.Spec.bind (fun _ operation => operation.Owing ∧ operation.Unused) ?_ fun _ => enter_spec response
  · rw [prepare, if_pos (by simp [valid])]
    exact Raise.Spec.pure fun _ => id
  · rw [stream, if_pos valid.2]
    exact Raise.Spec.pure fun _ => id

/-- **The leak.** Arguments that the library does not take raise between the lease and the `try`. -/
theorem aenter_owing (invalid : arguments.valid = false)
    (obtains : acquisition.obtains = true) (response : ResponseHead) :
    Raise.Spec Fresh (aenter acquisition arguments response) (fun _ _ => False) fun _ => Owing := by
  refine Raise.Spec.bind (fun _ => Owing)
    ((acquireUpstream_spec acquisition).weaken (fun _ => id) (fun _ _ owed => owed.2.1)
      fun _ _ none => absurd (none.1.symm.trans obtains) Bool.false_ne_true) fun _ => ?_
  by_cases prepared : (arguments.headers && arguments.extensions) = true
  · refine Raise.Spec.bind (fun _ => Owing) ?_ fun _ => Raise.Spec.bind (fun _ _ => False) ?_ fun _ _ =>
      False.elim
    · rw [prepare, if_pos prepared]
      exact Raise.Spec.pure fun _ => id
    · rw [Arguments.valid, prepared, Bool.true_and] at invalid
      rw [stream, if_neg (Bool.eq_false_iff.mp invalid)]
      exact fail_spec fun _ owing => owing
  · refine Raise.Spec.bind (fun _ _ => False) ?_ fun _ _ => False.elim
    rw [prepare, if_neg prepared]
    exact fail_spec fun _ owing => owing

theorem aenter_refused (refused : acquisition.obtains = false)
    (arguments : Arguments) (response : ResponseHead) :
    Raise.Spec Fresh (aenter acquisition arguments response) (fun _ => Bound) fun _ => Settled := by
  refine Raise.Spec.bind (fun _ _ => False)
    ((acquireUpstream_spec acquisition).weaken (fun _ => id)
      (fun _ _ owed => Bool.false_ne_true (refused.symm.trans owed.1)) fun _ _ => And.right)
    fun _ _ => False.elim

theorem nonStreamRequest_spec (acquisition : Acquisition) (arguments : Arguments) :
    Raise.Spec Fresh (nonStreamRequest acquisition arguments) (fun _ => Settled) fun _ => Settled := by
  refine Raise.Spec.bind _ (prepare_spec arguments) fun _ =>
    Raise.Spec.bind (fun _ operation => operation.Owing ∧ operation.Unused)
      ((acquireUpstream_spec acquisition).weaken (fun _ => id) (fun _ _ => And.right) fun _ _ => And.right)
      fun _ => ?_
  refine (Raise.Spec.tryFinally Leased ?_ release_spec).weaken (fun _ => id) (fun _ _ => Released.settled)
    fun _ _ => Released.settled
  refine Raise.Spec.bind _ (stream_spec arguments) fun _ => Raise.Spec.bind _ awaitHead_spec fun _ => ?_
  refine Raise.Spec.tryFinally Leased ?_ suspend_leased
  exact Raise.Spec.bind (fun _ => Leased) (markConnected_spec.returning fun _ _ => And.left) fun _ =>
    suspend_leased

/-- `send` up to the head of the response. -/
theorem sendHead_spec (arguments : Arguments) :
    Raise.Spec (fun operation => operation.Owing ∧ operation.Unused)
      (Raise.tryExcept
        (do
          stream arguments
          awaitHead
          markConnected)
        fun error => do
          release
          Raise.throw error)
      (fun _ operation => operation.Leased ∧ operation.Unused) fun _ => Settled := by
  refine Raise.Spec.tryExcept (fun _ => Leased) ?_ fun error => ?_
  · exact Raise.Spec.bind _ (stream_spec arguments) fun _ =>
      Raise.Spec.bind _ awaitHead_spec fun _ => markConnected_spec
  · exact Raise.Spec.bind (fun _ => Released) (release_spec.raising fun _ _ => Released.settled) fun _ =>
      Raise.Spec.throw fun _ => Released.settled

theorem sendStreaming_spec (acquisition : Acquisition) (arguments : Arguments) (response : ResponseHead) :
    Raise.Spec Fresh (send acquisition arguments response true) (fun _ => Bound) fun _ => Settled := by
  refine Raise.Spec.bind _ (prepare_spec arguments) fun _ =>
    Raise.Spec.bind (fun _ operation => operation.Owing ∧ operation.Unused)
      ((acquireUpstream_spec acquisition).weaken (fun _ => id) (fun _ _ => And.right) fun _ _ => And.right)
      fun _ => Raise.Spec.bind _ (sendHead_spec arguments) fun _ => ?_
  rw [if_pos rfl]
  refine Raise.Spec.bind (fun _ => Bound) (Raise.Spec.modify fun _ ⟨leased, unused⟩ =>
    Or.inr ⟨leased, rfl, unused⟩) fun _ => Raise.Spec.bind (fun _ => Bound) ?_ fun _ =>
      (closed_spec response).raising fun _ _ => Released.settled
  refine Raise.Spec.tryExcept (fun _ => Leased) (validate_spec response) fun error => ?_
  refine Raise.Spec.bind (fun _ => Released) ?_ fun _ => Raise.Spec.throw fun _ => Released.settled
  exact (Raise.Spec.tryFinally Leased suspend_leased release_spec).raising fun _ _ => Released.settled

theorem sendBuffered_spec (acquisition : Acquisition) (arguments : Arguments) (response : ResponseHead) :
    Raise.Spec Fresh (send acquisition arguments response false) (fun _ => Settled) fun _ => Settled := by
  refine Raise.Spec.bind _ (prepare_spec arguments) fun _ =>
    Raise.Spec.bind (fun _ operation => operation.Owing ∧ operation.Unused)
      ((acquireUpstream_spec acquisition).weaken (fun _ => id) (fun _ _ => And.right) fun _ _ => And.right)
      fun _ => Raise.Spec.bind _ (sendHead_spec arguments) fun _ => ?_
  rw [if_neg Bool.false_ne_true]
  have buffered : Raise.Spec (fun operation => operation.Leased ∧ operation.Unused) suspend
      (fun _ operation => operation.Leased ∧ operation.Unused)
      fun _ operation => operation.Leased ∧ operation.Unused :=
    suspend_spec fun _ ⟨leased, unused⟩ => ⟨leased.wait, unused⟩
  refine (Raise.Spec.tryFinally (fun operation => operation.Leased ∧ operation.Unused) buffered
    (Raise.Spec.tryFinally Leased aclose_leased release_spec)).weaken (fun _ => id)
      (fun _ _ => Released.settled) fun _ _ => Released.settled

/-! ### The account at the end -/

/-- **Every lease is given back once**, not before the response head or the end of the operation, and the
pool counts what the other operations count. -/
structure Accounted (operation : Operation) : Prop where
  leases : operation.obtained ≤ 1
  returned : operation.returned = operation.obtained
  onTime : operation.early = 0
  active : operation.pool.activeOperations = (operation.others operation.awaits).activeOperations
  gauge : operation.pool.begun + (operation.others operation.awaits).ended =
    operation.pool.ended + (operation.others operation.awaits).begun
  pending : operation.pool.pending = (operation.others operation.awaits).pending

theorem Operation.Settled.accounted (settled : operation.Settled) :
    Accounted operation := by
  obtain ⟨calls, leases, one, account⟩ := settled
  have counted := account.leases
  simp only [Prod.mk.injEq] at counted
  obtain ⟨obtained, returned, early⟩ := counted
  refine ⟨obtained ▸ one, returned.trans obtained.symm, early, account.active, ?_, account.pending⟩
  rw [account.begun, account.ended]
  omega

theorem Operation.Owing.not_accounted (owing : operation.Owing) :
    ¬ Accounted operation := by
  intro accounted
  have counted := owing.2.2.2.leases
  have returned := accounted.returned
  simp only [Prod.mk.injEq] at counted
  omega

theorem start_fresh (resourceMode : Bool) (others : Nat → Counts) (answers : Nat → Bool) :
    (Operation.start resourceMode others answers).Fresh :=
  ⟨rfl, rfl, rfl, ⟨rfl, rfl, rfl⟩, rfl, rfl, rfl, rfl, rfl⟩

/-- A call that enters a context with arguments that the library does not take, and has a lease. -/
def ManagedCall.Leaks (acquisition : Acquisition) (arguments : Arguments) : ManagedCall → Prop
  | .stream _ => acquisition.obtains = true ∧ arguments.valid = false
  | _ => False

theorem stream_accounted {response : ResponseHead}
    (entered : Raise.Spec Fresh (aenter acquisition arguments response) (fun _ => Bound) fun _ => Settled)
    (uses : List Use) :
    Raise.Spec Fresh ((ManagedCall.stream uses).run acquisition arguments response) (fun _ => Settled)
      fun _ => Settled := by
  refine Raise.Spec.bind _ entered fun _ => Raise.Spec.bind _ (useAll_spec uses) fun _ => ?_
  exact aexit_spec.weaken (fun _ => id) (fun _ _ => Released.settled) fun _ _ => Released.settled

/-- **A call that does not leak** is settled. -/
theorem run_settled (response : ResponseHead)
    (call : ManagedCall) (keeps : ¬ call.Leaks acquisition arguments) :
    Raise.Spec Fresh (call.run acquisition arguments response) (fun _ => Settled) fun _ => Settled := by
  cases call with
  | stream uses =>
    by_cases obtains : acquisition.obtains = true
    · have valid : arguments.valid = true := by
        by_contra invalid
        exact keeps ⟨obtains, Bool.eq_false_iff.mpr invalid⟩
      exact stream_accounted (aenter_spec valid response) uses
    · exact stream_accounted (aenter_refused (Bool.eq_false_iff.mpr obtains) arguments response) uses
  | request => exact nonStreamRequest_spec acquisition arguments
  | send => exact sendBuffered_spec acquisition arguments response
  | sendStreaming first rest =>
    refine Raise.Spec.bind _ (sendStreaming_spec acquisition arguments response) fun _ => ?_
    refine Raise.Spec.bind (fun _ => Released) (Raise.Spec.attempt (use_spec first)) fun _ => ?_
    exact (useAll_released rest).returning fun _ _ => Released.settled

/-- **A call that leaks** owes its lease for good. -/
theorem run_owing (response : ResponseHead)
    {call : ManagedCall} (leaks : call.Leaks acquisition arguments) :
    Raise.Spec Fresh (call.run acquisition arguments response) (fun _ => Owing) fun _ => Owing := by
  cases call with
  | stream uses =>
    exact Raise.Spec.bind _ (aenter_owing leaks.2 leaks.1 response) fun _ _ => False.elim
  | request => exact leaks.elim
  | send => exact leaks.elim
  | sendStreaming first rest => exact leaks.elim

/-- **Exactly when a lease is given back.** For every operation, its arguments, what it finds at the pool,
its response, the awaits that raise and the other operations of the pool: the account is even at the end if
and only if the operation is not a context that has obtained its lease before arguments that the library
does not take. -/
theorem accounted_iff (resourceMode : Bool) (others : Nat → Counts) (answers : Nat → Bool)
    (acquisition : Acquisition) (arguments : Arguments) (response : ResponseHead) (call : ManagedCall) :
    Accounted (call.run acquisition arguments response (Operation.start resourceMode others answers)).2 ↔
      ¬ call.Leaks acquisition arguments := by
  have fresh := start_fresh resourceMode others answers
  constructor
  · intro accounted leaks
    have owing := run_owing response leaks _ fresh
    rcases outcome : call.run acquisition arguments response (.start resourceMode others answers) with
      ⟨_ | _, after⟩ <;> rw [outcome] at owing accounted <;> exact owing.not_accounted accounted
  · intro keeps
    have settled := run_settled response call keeps _ fresh
    rcases outcome : call.run acquisition arguments response (.start resourceMode others answers) with
      ⟨_ | _, after⟩ <;> rw [outcome] at settled <;> exact settled.accounted

/-- A context whose headers `httpx.Headers` does not take, in a pool without other operations. -/
theorem context_leaks : ¬ ∀ (resourceMode : Bool) (others : Nat → Counts) (answers : Nat → Bool)
    (acquisition : Acquisition) (arguments : Arguments) (response : ResponseHead) (call : ManagedCall),
      Accounted (call.run acquisition arguments response
        (Operation.start resourceMode others answers)).2 := by
  intro accounted
  have returned := (accounted true (fun _ => ⟨0, 0, 0, 0⟩) (fun _ => true) ⟨true, false, true, false, true⟩
    ⟨false, true, true⟩ ⟨200, none, false⟩ (.stream [])).returned
  revert returned
  decide

end UniApi.Upstream
