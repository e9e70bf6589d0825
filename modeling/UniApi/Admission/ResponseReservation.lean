/-
**A temporary reservation of response memory.**

`TemporaryResponseBytesReservation`, with the controller's parts of its calls. The counters of
the request, of the controller and of the memory governor are shared with other reservations:
what those hold, and what the governor answers, may be different at each moment.

* `Held`: an open reservation is charged its size, everywhere;
* `reserve_spec`, `commit_spec`: a growth or a commit keeps it so, and raises before any
  change;
* `release_spec`: a release takes back all it charged, even if it is interrupted.
-/

import UniApi.Lib.Raise

namespace UniApi.Admission

open UniApi.Lib

/-- Which limit a response is refused at. -/
inductive AdmissionBranch where
  | perRequestResponseLimit
  | perRequestRetainedLimit
  | globalHardBudget
  | parentGovernor
  deriving DecidableEq

/-- What a call on a reservation raises. -/
inductive ReservationFault where
  | runtimeError (message : String)
  | budgetExhausted (branch : AdmissionBranch)
  | cancelled
  deriving DecidableEq

/-- `max_response_bytes`, `max_retained_bytes_per_request` and `body_budget_bytes`, and whether
there is a memory governor. -/
structure ResponseLimits where
  maxResponseBytes : ℕ
  maxRetainedBytesPerRequest : ℕ
  bodyBudgetBytes : ℕ
  governed : Bool

/-- **A moment**, as an await finds it: whether it is cancelled, what others have reserved, and
what the governor allows. -/
structure Moment where
  cancelled : Bool
  releaseRequested : Bool
  requestBodyBytes : ℕ
  requestResponseBytes : ℕ
  globalBodyBytes : ℕ
  globalResponseBytes : ℕ
  governorAllows : ℕ → Bool

structure TemporaryResponseBytesReservation where
  size : ℕ
  reserveCallCount : ℕ
  active : Bool
  released : Bool
  committed : Bool
  closing : Bool
  /-- What it adds to the counter of the request, of the controller and of the governor. -/
  requestCharge : ℕ
  globalCharge : ℕ
  parentCharge : ℕ
  /-- The awaits so far. -/
  awaits : ℕ
  deriving DecidableEq

namespace TemporaryResponseBytesReservation

/-- `__init__`. -/
def init : TemporaryResponseBytesReservation where
  size := 0
  reserveCallCount := 0
  active := false
  released := false
  committed := false
  closing := false
  requestCharge := 0
  globalCharge := 0
  parentCharge := 0
  awaits := 0

/-- A call that may raise. -/
abbrev Run (α : Type) := Raise ReservationFault TemporaryResponseBytesReservation α

section Calls

variable (limits : ResponseLimits) (moments : ℕ → Moment)

/-- A moment that nothing cancels. -/
def observe : Run Moment := do
  let reservation ← Raise.get
  Raise.modify fun reservation => { reservation with awaits := reservation.awaits + 1 }
  return moments reservation.awaits

/-- An await. -/
def await : Run Moment := do
  let moment ← observe moments
  if moment.cancelled then Raise.throw .cancelled else return moment

/-- `_admit_response_bytes_locked`, where it refuses. -/
def refusal (moment : Moment) (additional : ℕ) (reservation : TemporaryResponseBytesReservation) :
    Option AdmissionBranch :=
  let request := moment.requestResponseBytes + reservation.requestCharge
  let global := moment.globalResponseBytes + reservation.globalCharge
  if request + additional > limits.maxResponseBytes then some .perRequestResponseLimit
  else if moment.requestBodyBytes + (request + additional) > limits.maxRetainedBytesPerRequest then
    some .perRequestRetainedLimit
  else if moment.globalBodyBytes + global + additional > limits.bodyBudgetBytes
    then some .globalHardBudget
  else if limits.governed ∧ ¬ moment.governorAllows additional then some .parentGovernor
  else none

/-- What an admission charges. -/
def charge (additional : ℕ) (reservation : TemporaryResponseBytesReservation) :
    TemporaryResponseBytesReservation :=
  { reservation with
    size := reservation.size + additional
    reserveCallCount := reservation.reserveCallCount + 1
    requestCharge := reservation.requestCharge + additional
    globalCharge := reservation.globalCharge + additional
    parentCharge := reservation.parentCharge + if limits.governed then additional else 0 }

/-- An admission, and its charge. -/
def admitBytes (moment : Moment) (additional : ℕ) : Run Unit := do
  let reservation ← Raise.get
  match refusal limits moment additional reservation with
  | some branch => Raise.throw (.budgetExhausted branch)
  | none => Raise.modify (charge limits additional)

/-- `_activate_temporary_response`, which is shielded. -/
def activate (additional : ℕ) : Run Unit := do
  let moment ← observe moments
  if moment.releaseRequested then
    Raise.throw (.runtimeError "cannot reserve bytes on a released request lease")
  else
    admitBytes limits moment additional
    Raise.modify fun reservation => { reservation with active := true }

/-- `_grow_temporary_response`. -/
def grow (additional : ℕ) : Run Unit := do
  let moment ← await moments
  let reservation ← Raise.get
  if !reservation.active || reservation.released || reservation.committed then
    Raise.throw (.runtimeError "temporary response reservation is closed")
  else admitBytes limits moment additional

/-- `reserve`. -/
def reserve (additional : ℕ) : Run ℕ := do
  let _ ← await moments
  let reservation ← Raise.get
  if reservation.released || reservation.committed || reservation.closing then
    Raise.throw (.runtimeError "temporary response reservation is closed")
  else
    grow limits moments additional
    let grown ← Raise.get
    return grown.size

/-- `_commit_temporary_response`. -/
def commitResponse : Run Unit := do
  let _ ← await moments
  let reservation ← Raise.get
  if !reservation.active || reservation.released then
    Raise.throw (.runtimeError "temporary response reservation is closed")
  else if reservation.committed then return ()
  else Raise.modify fun reservation => { reservation with committed := true }

/-- `commit`. -/
def commit : Run ℕ := do
  let _ ← await moments
  let reservation ← Raise.get
  if reservation.released || reservation.closing then
    Raise.throw (.runtimeError "cannot commit a released reservation")
  else if reservation.committed then return reservation.size
  else
    commitResponse moments
    return reservation.size

/-- `_release_response_bytes`. -/
def releaseBytes : Run Unit := do
  let moment ← observe moments
  let reservation ← Raise.get
  if reservation.size > moment.requestResponseBytes + reservation.requestCharge then
    Raise.throw (.runtimeError "request response reservation underflow")
  else if reservation.size > moment.globalResponseBytes + reservation.globalCharge then
    Raise.throw (.runtimeError "upstream response reservation underflow")
  else
    Raise.modify fun reservation => { reservation with
      requestCharge := reservation.requestCharge - reservation.size
      globalCharge := reservation.globalCharge - reservation.size
      parentCharge := reservation.parentCharge - if limits.governed then reservation.size else 0 }

/-- `_release_coordinated`, the task that `release` shields. -/
def releaseCoordinated : Run Unit := do
  let _ ← observe moments
  let reservation ← Raise.get
  if reservation.committed || reservation.released then return ()
  else
    releaseBytes limits moments
    Raise.modify fun reservation => { reservation with released := true }

/-- `release`. A cancellation waits for the task, and is raised then. -/
def release : Run Unit := do
  let reservation ← Raise.get
  if reservation.committed || reservation.released then return ()
  else
    Raise.modify fun reservation => { reservation with closing := true }
    releaseCoordinated limits moments
    let _ ← await moments
    return ()

/-- `reserve_temporary_response_bytes`. A cancellation finds the reservation made, and releases
it. -/
def reserveTemporaryResponseBytes (additional : ℕ) : Run Unit := do
  activate limits moments additional
  let moment ← observe moments
  if moment.cancelled then
    -- the release is a task of its own
    release limits fun index => { moments index with cancelled := false }
    Raise.throw .cancelled
  else return ()

end Calls

/-! ### What is charged -/

/-- The counters hold so much of the reservation. -/
structure Charged (limits : ResponseLimits) (amount : ℕ)
  (reservation : TemporaryResponseBytesReservation) :
    Prop where
  request : reservation.requestCharge = amount
  global : reservation.globalCharge = amount
  parent : reservation.parentCharge = if limits.governed then amount else 0

/-- **An open reservation** of a size. -/
structure Held (limits : ResponseLimits) (size : ℕ)
    (reservation : TemporaryResponseBytesReservation) : Prop where
  active : reservation.active = true
  unreleased : reservation.released = false
  uncommitted : reservation.committed = false
  unclosed : reservation.closing = false
  isSize : reservation.size = size
  charged : Charged limits size reservation

/-- **A committed reservation** of a size. -/
structure Committed (limits : ResponseLimits) (size : ℕ)
    (reservation : TemporaryResponseBytesReservation) : Prop where
  committed : reservation.committed = true
  unreleased : reservation.released = false
  isSize : reservation.size = size
  charged : Charged limits size reservation

/-- **Nothing is left** of a reservation. -/
structure Free (limits : ResponseLimits) (reservation : TemporaryResponseBytesReservation) :
    Prop where
  uncommitted : reservation.committed = false
  charged : Charged limits 0 reservation

theorem charged_init (limits : ResponseLimits) : Charged limits 0 init :=
    ⟨rfl, rfl, (ite_self 0).symm⟩

section Specs

variable {limits : ResponseLimits} {moments : ℕ → Moment} {size : ℕ}
  {seen : TemporaryResponseBytesReservation}

theorem Charged.charge {amount : ℕ} (charged : Charged limits amount seen) (additional : ℕ) :
    Charged limits (amount + additional) (seen.charge limits additional) := by
  refine ⟨congrArg (· + additional) charged.request, congrArg (· + additional) charged.global, ?_⟩
  unfold TemporaryResponseBytesReservation.charge
  rw [charged.parent]
  split <;> rfl

theorem observe_spec {fails : ReservationFault → TemporaryResponseBytesReservation → Prop} :
    Raise.Spec (fun state => state = seen) (observe moments)
      (fun moment state =>
        moment = moments seen.awaits ∧ state = { seen with awaits := seen.awaits + 1 })
      fails := by
  refine Raise.Spec.bind_get_at (Raise.Spec.bind _ Raise.Spec.modify_at fun _ => ?_)
  exact Raise.Spec.pure fun state same => ⟨rfl, same⟩

/-- An await changes the count of awaits, also where it raises. -/
theorem await_spec :
    Raise.Spec (fun state => state = seen) (await moments)
      (fun _ state => state = { seen with awaits := seen.awaits + 1 })
      (fun _ state => state = { seen with awaits := seen.awaits + 1 }) := by
  refine Raise.Spec.bind _ observe_spec fun moment => Raise.Spec.given fun _ => ?_
  exact Raise.Spec.ite (fun _ => Raise.Spec.throw fun _ same => same) fun _ =>
    Raise.Spec.pure fun _ same => same

theorem admitBytes_spec (moment : Moment) (additional : ℕ) :
    Raise.Spec (fun state => state = seen) (admitBytes limits moment additional)
      (fun _ state => state = seen.charge limits additional) (fun _ state => state = seen) := by
  refine Raise.Spec.bind_get_at ?_
  cases refusal limits moment additional seen with
  | none => exact Raise.Spec.modify_at
  | some branch => exact Raise.Spec.throw fun _ same => same

theorem Held.later (held : Held limits size seen) (awaits : ℕ) :
    Held limits size { seen with awaits := awaits } :=
  ⟨held.active, held.unreleased, held.uncommitted, held.unclosed, held.isSize,
    ⟨held.charged.request, held.charged.global, held.charged.parent⟩⟩

theorem Free.later (free : Free limits seen) (awaits : ℕ) :
    Free limits { seen with awaits := awaits } :=
  ⟨free.uncommitted, ⟨free.charged.request, free.charged.global, free.charged.parent⟩⟩

theorem Held.charge (held : Held limits size seen) (additional : ℕ) :
    Held limits (size + additional) (seen.charge limits additional) :=
  ⟨held.active, held.unreleased, held.uncommitted, held.unclosed,
    congrArg (· + additional) held.isSize, held.charged.charge additional⟩

theorem await_held :
    Raise.Spec (Held limits size) (await moments) (fun _ => Held limits size)
      (fun _ => Held limits size) :=
  fun state held => await_spec.weaken (fun _ same => same) (fun _ _ same => same ▸ held.later _)
    (fun _ _ same => same ▸ held.later _) state rfl

theorem grow_spec (additional : ℕ) :
    Raise.Spec (Held limits size) (grow limits moments additional)
      (fun _ => Held limits (size + additional)) (fun _ => Held limits size) := by
  refine Raise.Spec.bind _ await_held fun moment => Raise.Spec.bind_get fun seen held => ?_
  refine Raise.Spec.ite (fun _ => Raise.Spec.throw fun _ same => same ▸ held) fun _ => ?_
  exact (admitBytes_spec moment additional).weaken (fun _ same => same)
    (fun _ _ same => same ▸ held.charge additional) fun _ _ same => same ▸ held

/-- **A growth** is charged, or refused before it changes anything. -/
theorem reserve_spec (additional : ℕ) :
    Raise.Spec (Held limits size) (reserve limits moments additional)
      (fun total state => total = size + additional ∧ Held limits (size + additional) state)
      (fun _ => Held limits size) := by
  refine Raise.Spec.bind _ await_held fun _ => Raise.Spec.bind_get fun seen held => ?_
  refine Raise.Spec.ite (fun _ => Raise.Spec.throw fun _ same => same ▸ held) fun _ => ?_
  refine Raise.Spec.bind _ ((grow_spec additional).weaken (fun _ same => same ▸ held)
    (fun _ _ grown => grown) fun _ _ kept => kept) fun _ => ?_
  exact Raise.Spec.bind_get fun grown holds => Raise.Spec.pure fun _ same =>
    ⟨holds.isSize, same ▸ holds⟩

/-- **A commit** keeps the charge, or raises before it changes anything. -/
theorem commit_spec :
    Raise.Spec (Held limits size) (commit moments)
      (fun total state => total = size ∧ Committed limits size state)
      (fun _ => Held limits size) := by
  refine Raise.Spec.bind _ await_held fun _ => Raise.Spec.bind_get fun seen held => ?_
  refine Raise.Spec.ite (fun _ => Raise.Spec.throw fun _ same => same ▸ held) fun _ => ?_
  refine Raise.Spec.ite (fun committed => ?_) fun _ => ?_
  · rw [held.uncommitted] at committed
    cases committed
  · refine Raise.Spec.bind (fun _ => Committed limits size) ?_ fun _ =>
      Raise.Spec.pure fun _ done =>
      ⟨held.isSize, done⟩
    refine Raise.Spec.bind _ (await_held.weaken (fun _ same => same ▸ held) (fun _ _ kept => kept)
      fun _ _ kept => kept) fun _ => Raise.Spec.bind_get fun again holds => ?_
    refine Raise.Spec.ite (fun _ => Raise.Spec.throw fun _ same => same ▸ holds) fun _ => ?_
    refine Raise.Spec.ite (fun committed => ?_) fun _ => Raise.Spec.modify fun _ same => ?_
    · rw [holds.uncommitted] at committed
      cases committed
    · subst same
      exact ⟨rfl, holds.unreleased, holds.isSize,
        ⟨holds.charged.request, holds.charged.global, holds.charged.parent⟩⟩

theorem releaseBytes_spec (charged : Charged limits seen.size seen)
    (uncommitted : seen.committed = false) :
    Raise.Spec (fun state => state = seen) (releaseBytes limits moments) (fun _ => Free limits)
      (fun _ => Free limits) := by
  refine Raise.Spec.bind _ observe_spec fun moment => Raise.Spec.given fun _ =>
    Raise.Spec.bind_get_at ?_
  dsimp only
  rw [if_neg (by rw [charged.request]; omega), if_neg (by rw [charged.global]; omega)]
  refine Raise.Spec.modify fun _ same => ?_
  subst same
  refine ⟨uncommitted, ?_, ?_, ?_⟩
  · exact charged.request ▸ Nat.sub_self _
  · exact charged.global ▸ Nat.sub_self _
  · dsimp only
    rw [charged.parent, Nat.sub_self, ite_self]

/-- **A release** takes back all that was charged, whether it returns or raises. -/
theorem release_spec :
    Raise.Spec (Held limits size) (release limits moments) (fun _ => Free limits)
      (fun _ => Free limits) := by
  refine Raise.Spec.bind_get fun seen held => Raise.Spec.ite (fun done => ?_) fun _ => ?_
  · rw [held.uncommitted, held.unreleased] at done
    cases done
  have charged : Charged limits seen.size seen := held.isSize ▸ held.charged
  refine Raise.Spec.bind _ Raise.Spec.modify_at fun _ => ?_
  refine Raise.Spec.bind (fun _ => Free limits) ?_ fun _ => ?_
  · refine Raise.Spec.bind _ observe_spec fun _ => Raise.Spec.given fun _ =>
      Raise.Spec.bind_get_at ?_
    refine Raise.Spec.ite (fun done => ?_) fun _ => ?_
    · simp [held.uncommitted, held.unreleased] at done
    · refine Raise.Spec.bind _ (releaseBytes_spec
        ⟨charged.request, charged.global, charged.parent⟩ held.uncommitted) fun _ => ?_
      exact Raise.Spec.modify fun _ free =>
        ⟨free.uncommitted, ⟨free.charged.request, free.charged.global, free.charged.parent⟩⟩
  · refine Raise.Spec.bind (fun _ => Free limits) ?_ fun _ => Raise.Spec.pure fun _ free => free
    intro state free
    exact await_spec.weaken (fun _ same => same) (fun _ _ same => same ▸ free.later _)
      (fun _ _ same => same ▸ free.later _) state rfl

/-- **A reservation is made** with its first bytes, or nothing is left of it. -/
theorem reserveTemporaryResponseBytes_spec (additional : ℕ) :
    Raise.Spec (fun state => state = init) (reserveTemporaryResponseBytes limits moments additional)
      (fun _ => Held limits additional) (fun _ => Free limits) := by
  have start : Free limits init := ⟨rfl, charged_init limits⟩
  refine Raise.Spec.bind (fun _ => Held limits additional) ?_ fun _ => ?_
  · refine Raise.Spec.bind _ observe_spec fun moment => Raise.Spec.given fun _ => ?_
    have still : Free limits { init with awaits := init.awaits + 1 } := start.later _
    refine Raise.Spec.ite (fun _ => Raise.Spec.throw fun _ same => same ▸ still) fun _ => ?_
    refine Raise.Spec.bind _
      ((admitBytes_spec moment additional).raising fun _ _ same => same ▸ still)
      fun _ => Raise.Spec.modify fun _ same => ?_
    subst same
    have charged := still.charged.charge additional
    rw [Nat.zero_add] at charged
    exact ⟨rfl, rfl, rfl, rfl, Nat.zero_add _,
      ⟨charged.request, charged.global, charged.parent⟩⟩
  · intro state held
    refine Raise.Spec.bind _ observe_spec (fun moment => Raise.Spec.given fun _ => ?_) state rfl
    refine Raise.Spec.ite (fun _ => ?_) fun _ => Raise.Spec.pure fun _ same => same ▸ held.later _
    refine Raise.Spec.bind (fun _ => Free limits)
      (release_spec.weaken (fun _ same => same ▸ held.later _)
      (fun _ _ free => free) fun _ _ free => free) fun _ => Raise.Spec.throw fun _ free => free

end Specs

end TemporaryResponseBytesReservation

end UniApi.Admission
