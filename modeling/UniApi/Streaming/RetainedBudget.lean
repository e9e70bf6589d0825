/-
**The retained-byte budget of the stream parsers.**

`_StreamParserRetainedBudget` charges every byte a parser keeps twice: to a local counter with a
fixed capacity, and to the parent memory governor under the budget's category. `reserve` asks the
parent first and gives the parent's grant back when the local capacity refuses.

`Mirrors` is the invariant: the parent holds for the category exactly what the local counter says.
`reserve_spec` and `release_spec` say what the two calls do to the counter; both keep the mirror,
also when they raise.
-/

import UniApi.Lib.Utf8
import UniApi.Admission.MemoryGovernor

namespace UniApi.Streaming

open UniApi.Lib UniApi.Admission

/-- What the stream parsers raise. -/
inductive StreamError where
  /-- `StreamParserBufferBudgetExhausted`. -/
  | bufferBudgetExhausted
  /-- `SSEBufferOverflowError`. -/
  | bufferOverflow (bufferName : String) (limitBytes observedBytes : Nat)
  /-- `SSEOutputLimitError`. -/
  | outputLimit (outputName : String) (limit observed : Nat)
  /-- `SSEIncompleteEventError`. -/
  | incompleteEvent (pendingBytes : Nat)
  /-- `SSEProtocolError` itself. -/
  | protocol (message : String)
  /-- A `UnicodeDecodeError` that no handler turned into a protocol error. -/
  | unicodeDecode
  /-- `ValueError`. -/
  | value (message : String)
  /-- `RuntimeError`. -/
  | runtime (message : String)
  deriving DecidableEq, Repr

namespace StreamError

/-- The counter of the budget would become negative. -/
def budgetUnderflow : StreamError := .runtime "stream parser retained-byte budget underflow"

/-- The counter of the governor would become negative. -/
def governorUnderflow : StreamError := .runtime "adaptive memory reservation underflow"

/-- The counter of a parser would become negative. -/
def pendingUnderflow : StreamError := .runtime "SSE parser pending-byte budget underflow"

/-- A release that underflows. -/
def Underflow (error : StreamError) : Prop :=
  error = budgetUnderflow ∨ error = governorUnderflow ∨ error = pendingUnderflow

instance : DecidablePred Underflow := fun error =>
  inferInstanceAs (Decidable (error = budgetUnderflow ∨ error = governorUnderflow ∨
    error = pendingUnderflow))

/-- A byte or record limit, or a refused reservation: the failures that depend on the
configuration and on what else the process holds, not on the stream. -/
def isResource : StreamError → Bool
  | .bufferBudgetExhausted | .bufferOverflow .. | .outputLimit .. => true
  | _ => false

end StreamError

structure RetainedBudget where
  capacityBytes : Int
  memoryGovernor : Option MemoryGovernor
  memoryCategory : String
  usedBytes : Int
  peakBytes : Int
  rejected : Int

namespace RetainedBudget

/-- A budget nothing is charged to. -/
def fresh (capacityBytes : Int) (memoryGovernor : Option MemoryGovernor) (memoryCategory : String) :
    RetainedBudget :=
  { capacityBytes, memoryGovernor, memoryCategory, usedBytes := 0, peakBytes := 0, rejected := 0 }

/-- `memory_governor.release`, if there is a governor. -/
def releaseParent (size : Int) : Raise StreamError RetainedBudget Unit := fun budget =>
  match budget.memoryGovernor with
  | none => (.ok (), budget)
  | some governor =>
    match governor.release budget.memoryCategory size with
    | .ok governor => (.ok (), { budget with memoryGovernor := some governor })
    | .error .negative => (.error (.value "memory release cannot be negative"), budget)
    | .error .underflow => (.error .governorUnderflow, budget)

/-- The local half of `reserve`. -/
def reserveLocal (size : Int) : Raise StreamError RetainedBudget Unit := do
  let budget ← Raise.get
  if budget.usedBytes + size > budget.capacityBytes then
    Raise.modify fun budget => { budget with rejected := budget.rejected + 1 }
    releaseParent size
    Raise.throw .bufferBudgetExhausted
  else
    Raise.modify fun budget => { budget with
      usedBytes := budget.usedBytes + size
      peakBytes := max budget.peakBytes (budget.usedBytes + size) }

/-- `reserve`. -/
def reserve (size : Int) : Raise StreamError RetainedBudget Unit := fun budget =>
  if size ≤ 0 then (.ok (), budget)
  else
    match budget.memoryGovernor with
    | none => reserveLocal size budget
    | some governor =>
      match governor.reserveNowait budget.memoryCategory size with
      | (true, governor) => reserveLocal size { budget with memoryGovernor := some governor }
      | (false, governor) =>
        (.error .bufferBudgetExhausted,
          { budget with memoryGovernor := some governor, rejected := budget.rejected + 1 })

/-- `release`. -/
def release (size : Int) : Raise StreamError RetainedBudget Unit := fun budget =>
  if size ≤ 0 then (.ok (), budget)
  else if size > budget.usedBytes then (.error .budgetUnderflow, budget)
  else releaseParent size { budget with usedBytes := budget.usedBytes - size }

/-- **The parent mirrors the counter**: what the governor holds for the category is what the budget
counts. -/
def Mirrors (budget : RetainedBudget) : Prop :=
  ∀ governor, budget.memoryGovernor = some governor →
    governor.reservedFor budget.memoryCategory = budget.usedBytes

/-- The budget counts `used` bytes, and the parent as many. -/
def Counts (category : String) (used : Int) (budget : RetainedBudget) : Prop :=
  budget.memoryCategory = category ∧ budget.usedBytes = used ∧ budget.Mirrors

theorem releaseParent_spec (category : String) (used size : Int) (positive : 0 ≤ size)
    (enough : size ≤ used) :
    Raise.Spec (fun budget => budget.memoryCategory = category ∧ budget.usedBytes = used - size ∧
        ∀ governor, budget.memoryGovernor = some governor → governor.reservedFor category = used)
      (releaseParent size) (fun _ => Counts category (used - size)) (fun _ _ => False) := by
  rintro budget ⟨sameCategory, counted, parent⟩
  unfold releaseParent
  cases held : budget.memoryGovernor with
  | none => exact ⟨sameCategory, counted, by simp [Mirrors, held]⟩
  | some governor =>
    have reserved := parent governor held
    obtain ⟨after, released⟩ : ∃ after, governor.release budget.memoryCategory size = .ok after :=
      MemoryGovernor.release_ok positive (by rw [sameCategory, reserved]; exact enough)
    have left := MemoryGovernor.release_reserved released category
    simp only [released]
    refine ⟨sameCategory, counted, ?_⟩
    intro governor' same
    cases same
    simp only [sameCategory] at left ⊢
    rw [left, counted, reserved, if_pos trivial]

/-- **`release`**, of no more than is counted, takes the size off and never raises. -/
theorem release_spec (category : String) (used size : Int) (enough : size ≤ used) :
    Raise.Spec (Counts category used) (release size)
      (fun _ => Counts category (used - max size 0)) (fun _ _ => False) := by
  rintro budget ⟨sameCategory, counted, mirrors⟩
  unfold release
  split
  · rename_i small
    rw [show used - max size 0 = used by omega]
    exact ⟨sameCategory, counted, mirrors⟩
  · rename_i large
    rw [if_neg (by omega), show max size 0 = size by omega]
    refine releaseParent_spec category used size (by omega) enough _ ⟨sameCategory, ?_, ?_⟩
    · simp only [counted]
    · intro governor held
      rw [← counted, ← sameCategory]
      exact mirrors governor held

theorem reserveLocal_spec (category : String) (used size : Int) (positive : 0 ≤ size)
    (holds : 0 ≤ used) :
    Raise.Spec (fun budget => budget.memoryCategory = category ∧ budget.usedBytes = used ∧
        ∀ governor, budget.memoryGovernor = some governor →
          governor.reservedFor category = used + size)
      (reserveLocal size) (fun _ => Counts category (used + size))
      (fun error budget => error = .bufferBudgetExhausted ∧ Counts category used budget) := by
  refine Raise.Spec.bind_get fun seen start => ?_
  obtain ⟨sameCategory, counted, parent⟩ := start
  refine Raise.Spec.ite (fun full => ?_) (fun room => ?_)
  · -- the local capacity refuses: the parent's grant goes back
    refine Raise.Spec.bind (fun _ budget =>
      budget.memoryCategory = category ∧ budget.usedBytes = used + size - size ∧
        ∀ governor, budget.memoryGovernor = some governor →
          governor.reservedFor category = used + size) (Raise.Spec.modify ?_) fun _ => ?_
    · rintro state rfl
      exact ⟨sameCategory, by simp only [counted]; omega, parent⟩
    · have parentReleased := releaseParent_spec category (used + size) size positive (by omega)
      refine Raise.Spec.bind _ (parentReleased.weaken (fun _ start => start)
        (fun _ _ done => done) (fun _ _ impossible => impossible.elim)) fun _ => ?_
      refine Raise.Spec.throw fun state counts => ⟨rfl, ?_⟩
      rwa [show used + size - size = used by omega] at counts
  · refine Raise.Spec.modify ?_
    rintro state rfl
    refine ⟨sameCategory, by simp only [counted], ?_⟩
    intro governor held
    simp only [sameCategory, counted]
    exact parent governor held

/-- **`reserve`** adds the size, or raises that the budget is exhausted and leaves the counter. -/
theorem reserve_spec (category : String) (used size : Int) (holds : 0 ≤ used) :
    Raise.Spec (Counts category used) (reserve size) (fun _ => Counts category (used + max size 0))
      (fun error budget => error = .bufferBudgetExhausted ∧ Counts category used budget) := by
  rintro budget ⟨sameCategory, counted, mirrors⟩
  unfold reserve
  split
  · rename_i small
    rw [show used + max size 0 = used by omega]
    exact ⟨sameCategory, counted, mirrors⟩
  · rename_i large
    rw [show max size 0 = size by omega]
    cases held : budget.memoryGovernor with
    | none =>
      refine reserveLocal_spec category used size (by omega) holds budget
        ⟨sameCategory, counted, ?_⟩
      intro governor found
      rw [held] at found
      cases found
    | some governor =>
      have before := mirrors governor held
      have after := governor.reserve_reserved budget.memoryCategory category size
      simp only
      cases outcome : governor.reserveNowait budget.memoryCategory size with
      | mk granted governor' =>
        rw [outcome] at after
        simp only [sameCategory, and_true] at after before
        cases granted with
        | true =>
          refine reserveLocal_spec category used size (by omega) holds _
            ⟨sameCategory, counted, ?_⟩
          intro found same
          cases same
          simp only [if_true] at after
          rw [after, before, counted]
        | false =>
          refine ⟨rfl, sameCategory, counted, ?_⟩
          intro found same
          cases same
          simp only [Bool.false_eq_true, if_false] at after
          simp only [sameCategory]
          omega

end RetainedBudget

end UniApi.Streaming
