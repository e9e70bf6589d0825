/-
**Who holds retained bytes besides a parser: frames and leases.**

A `_RetainedTextFrame` owns the bytes of one parsed frame until it is released or collected; a
`StreamParserRetainedLease` owns bytes that a protocol accumulator grows and shrinks. Both give
back exactly what they hold, once. `charge` is what an owner holds, and the `_spec` theorems say
that each call moves the budget's counter by the change of the charge, whatever the outcome.
-/

import UniApi.Streaming.RetainedBudget

namespace UniApi.Streaming

open UniApi.Lib RetainedBudget

/-- A Python string: its code points. -/
abbrev PyStr := List CodePoint

/-! ### Frames -/

structure RetainedTextFrame where
  text : PyStr
  retainedBytes : Int
  released : Bool
  deriving DecidableEq

namespace RetainedTextFrame

/-- `_RetainedTextFrame.__new__`. -/
def new (text : PyStr) (retainedBytes : Int) : RetainedTextFrame :=
  { text, retainedBytes, released := false }

/-- What a frame holds. -/
def charge (frame : RetainedTextFrame) : Int := if frame.released then 0 else frame.retainedBytes

/-- `release`, also `__del__`, which ignores exceptions. -/
def release : Raise StreamError (RetainedTextFrame × RetainedBudget) Unit := do
  let (frame, _) ← Raise.get
  if frame.released then return ()
  else
    Raise.modify fun (frame, budget) => ({ frame with released := true }, budget)
    Raise.zoom Prod.snd (fun budget state => (state.1, budget))
      (RetainedBudget.release frame.retainedBytes)
    Raise.modify fun (frame, budget) => ({ frame with retainedBytes := 0 }, budget)

end RetainedTextFrame

/-! ### Leases -/

structure RetainedLease where
  size : Int
  released : Bool
  deriving DecidableEq

namespace RetainedLease

/-- A new lease holds nothing. -/
def new : RetainedLease := { size := 0, released := false }

/-- What a lease holds. -/
def charge (lease : RetainedLease) : Int := if lease.released then 0 else lease.size

/-- A call on the budget of a lease. -/
def onBudget (call : Raise StreamError RetainedBudget Unit) :
    Raise StreamError (RetainedLease × RetainedBudget) Unit :=
  Raise.zoom Prod.snd (fun budget state => (state.1, budget)) call

/-- `grow`. -/
def grow (additionalBytes : Int) : Raise StreamError (RetainedLease × RetainedBudget) Unit := do
  let (lease, _) ← Raise.get
  if additionalBytes < 0 then
    Raise.throw (.value "parser reservation cannot grow by a negative size")
  else if lease.released then Raise.throw (.runtime "parser reservation is released")
  else
    onBudget (RetainedBudget.reserve additionalBytes)
    Raise.modify fun (lease, budget) => ({ lease with size := lease.size + additionalBytes }, budget)

/-- `shrink`. -/
def shrink (releasedBytes : Int) : Raise StreamError (RetainedLease × RetainedBudget) Unit := do
  let (lease, _) ← Raise.get
  if releasedBytes < 0 ∨ releasedBytes > lease.size then
    Raise.throw (.value "invalid parser reservation shrink")
  else if lease.released then Raise.throw (.runtime "parser reservation is released")
  else
    Raise.modify fun (lease, budget) => ({ lease with size := lease.size - releasedBytes }, budget)
    onBudget (RetainedBudget.release releasedBytes)

/-- `release`, also `__del__`, which ignores exceptions. -/
def release : Raise StreamError (RetainedLease × RetainedBudget) Unit := do
  let (lease, _) ← Raise.get
  if lease.released then return ()
  else
    Raise.modify fun (_, budget) => ({ size := 0, released := true }, budget)
    onBudget (RetainedBudget.release lease.size)

end RetainedLease

/-! ### Parsers -/

/-- What a call of a parser works on: the parser, the budget, and the frames that are alive. -/
structure ParserCall (π : Type) where
  parser : π
  budget : RetainedBudget
  frames : List RetainedTextFrame

namespace ParserCall

variable {π : Type}

/-- A change of the parser alone. -/
def setParser (change : π → π) : Raise StreamError (ParserCall π) Unit :=
  Raise.modify fun state => { state with parser := change state.parser }

/-- A call on the budget. -/
def onBudget (call : Raise StreamError RetainedBudget Unit) : Raise StreamError (ParserCall π) Unit :=
  Raise.zoom ParserCall.budget (fun budget state => { state with budget }) call

end ParserCall

/-! ### What the calls do to the counter -/

/-- An owner with what it holds, and a budget that counts it beside `others`. -/
def Owned {ω : Type} (charge : ω → Int) (category : String) (others : Int) (state : ω × RetainedBudget) :
    Prop :=
  0 ≤ charge state.1 ∧ Counts category (others + charge state.1) state.2

/-- An owner that holds nothing, and a budget that counts `others`. -/
def GivenBack {ω : Type} (charge : ω → Int) (category : String) (others : Int)
    (state : ω × RetainedBudget) : Prop :=
  charge state.1 = 0 ∧ Counts category others state.2

section Owned

variable {category : String} {others : Int}

theorem GivenBack.owned {ω : Type} {charge : ω → Int} {state : ω × RetainedBudget}
    (given : GivenBack charge category others state) : Owned charge category others state := by
  refine ⟨Int.le_of_eq given.1.symm, ?_⟩
  rw [given.1, Int.add_zero]
  exact given.2

/-- **Releasing a frame** gives back what it holds, and never underflows. -/
theorem RetainedTextFrame.release_spec (remain : 0 ≤ others) :
    Raise.Spec (Owned charge category others) RetainedTextFrame.release
      (fun _ => GivenBack charge category others) (fun _ _ => False) := by
  refine Raise.Spec.bind_get fun (frame, budget) ⟨holds, counts⟩ => ?_
  refine Raise.Spec.ite (fun released => ?_) (fun alive => ?_)
  · have nothing : frame.charge = 0 := if_pos released
    simp only [nothing, Int.add_zero] at counts
    exact Raise.Spec.pure fun state same => same ▸ ⟨nothing, counts⟩
  · have charged : frame.charge = frame.retainedBytes := if_neg (by simpa using alive)
    simp only [charged] at holds counts
    have given := RetainedBudget.release_spec category (others + frame.retainedBytes)
      frame.retainedBytes (by omega)
    refine Raise.Spec.bind (fun _ state =>
      state.1.released = true ∧ Counts category (others + frame.retainedBytes) state.2)
      (Raise.Spec.modify ?_) fun _ => ?_
    · rintro state rfl
      exact ⟨rfl, counts⟩
    refine Raise.Spec.bind (fun _ state =>
      state.1.released = true ∧ Counts category others state.2)
      (Raise.Spec.zoom fun state start => ?_) fun _ => ?_
    · refine given.weaken ?_ (fun _ after counted => ⟨start.1, ?_⟩) (fun _ _ impossible => impossible)
      · rintro _ rfl
        exact start.2
      · rwa [show others + frame.retainedBytes - max frame.retainedBytes 0 = others by omega]
          at counted
    · refine Raise.Spec.modify fun state released => ⟨?_, released.2⟩
      simp [RetainedTextFrame.charge]

/-- A call on the budget moves the counter and leaves the lease. -/
theorem RetainedLease.onBudget_spec {call : Raise StreamError RetainedBudget Unit} (lease : RetainedLease)
    {before after : Int} {raises : StreamError → RetainedBudget → Prop}
    (inner : Raise.Spec (Counts category before) call (fun _ => Counts category after) raises) :
    Raise.Spec (fun state => state.1 = lease ∧ Counts category before state.2)
      (RetainedLease.onBudget call)
      (fun _ state => state.1 = lease ∧ Counts category after state.2)
      (fun error state => state.1 = lease ∧ raises error state.2) :=
  Raise.Spec.zoom fun _ start => inner.weaken (fun _ same => same ▸ start.2)
    (fun _ _ counted => ⟨start.1, counted⟩) (fun _ _ raised => ⟨start.1, raised⟩)

/-- What a call on an owner leaves when it raises: the owner as it was, and no underflow. -/
def Untouched {ω : Type} (charge : ω → Int) (category : String) (others : Int) (error : StreamError)
    (state : ω × RetainedBudget) : Prop :=
  ¬ error.Underflow ∧ Owned charge category others state

/-- **Growing a lease** adds to what it holds, or leaves it. -/
theorem RetainedLease.grow_spec (remain : 0 ≤ others) (additionalBytes : Int) :
    Raise.Spec (Owned charge category others) (RetainedLease.grow additionalBytes)
      (fun _ => Owned charge category others) (Untouched charge category others) := by
  refine Raise.Spec.bind_get fun (lease, budget) owned => ?_
  have ⟨holds, counts⟩ := owned
  refine Raise.Spec.ite (fun negative => ?_) (fun nonneg => ?_)
  · exact Raise.Spec.throw fun state same => same ▸ ⟨by decide, owned⟩
  refine Raise.Spec.ite (fun released => ?_) (fun alive => ?_)
  · exact Raise.Spec.throw fun state same => same ▸ ⟨by decide, owned⟩
  have charged : ∀ size, charge { lease with size := size } = size := fun size =>
    if_neg (by simpa using alive)
  have charge : lease.charge = lease.size := charged lease.size
  simp only [charge] at holds counts
  have reserved := onBudget_spec lease
    (RetainedBudget.reserve_spec category (others + lease.size) additionalBytes (by omega))
  refine Raise.Spec.bind _ (reserved.weaken ?_ (fun _ _ done => done) ?_) fun _ => ?_
  · rintro _ rfl
    exact ⟨rfl, counts⟩
  · rintro error state ⟨same, rfl, counted⟩
    refine ⟨by decide, ?_, ?_⟩
    · rw [same, charge]
      exact holds
    · rw [same, charge]
      exact counted
  · refine Raise.Spec.modify ?_
    rintro state ⟨rfl, counted⟩
    refine ⟨?_, ?_⟩
    · rw [charged]
      omega
    · rw [charged, show others + (state.1.size + additionalBytes) =
        others + state.1.size + max additionalBytes 0 by omega]
      exact counted

/-- **Shrinking a lease** gives back part of what it holds, or leaves it. -/
theorem RetainedLease.shrink_spec (remain : 0 ≤ others) (releasedBytes : Int) :
    Raise.Spec (Owned charge category others) (RetainedLease.shrink releasedBytes)
      (fun _ => Owned charge category others) (Untouched charge category others) := by
  refine Raise.Spec.bind_get fun (lease, budget) owned => ?_
  have ⟨holds, counts⟩ := owned
  refine Raise.Spec.ite (fun wrong => ?_) (fun fits => ?_)
  · exact Raise.Spec.throw fun state same => same ▸ ⟨by decide, owned⟩
  refine Raise.Spec.ite (fun released => ?_) (fun alive => ?_)
  · exact Raise.Spec.throw fun state same => same ▸ ⟨by decide, owned⟩
  have charged : ∀ size, charge { lease with size := size } = size := fun size =>
    if_neg (by simpa using alive)
  have charge : lease.charge = lease.size := charged lease.size
  simp only [charge] at holds counts
  have released := onBudget_spec { lease with size := lease.size - releasedBytes }
    (RetainedBudget.release_spec category (others + lease.size) releasedBytes (by omega))
  refine Raise.Spec.bind _ (Raise.Spec.modify ?_) fun _ =>
    released.weaken (fun _ start => start) ?_ (fun _ _ impossible => impossible.2.elim)
  · rintro _ rfl
    exact ⟨rfl, counts⟩
  · rintro _ state ⟨same, counted⟩
    refine ⟨?_, ?_⟩
    · rw [same, charged]
      omega
    · rw [same, charged, show others + (lease.size - releasedBytes) =
        others + lease.size - max releasedBytes 0 by omega]
      exact counted

/-- **Releasing a lease** gives back what it holds, and never underflows. -/
theorem RetainedLease.release_spec (remain : 0 ≤ others) :
    Raise.Spec (Owned charge category others) RetainedLease.release
      (fun _ => GivenBack charge category others) (fun _ _ => False) := by
  refine Raise.Spec.bind_get fun (lease, budget) ⟨holds, counts⟩ => ?_
  refine Raise.Spec.ite (fun released => ?_) (fun alive => ?_)
  · have nothing : lease.charge = 0 := if_pos released
    simp only [nothing, Int.add_zero] at counts
    exact Raise.Spec.pure fun state same => same ▸ ⟨nothing, counts⟩
  have charged : lease.charge = lease.size := if_neg (by simpa using alive)
  simp only [charged] at holds counts
  have given := onBudget_spec { size := 0, released := true }
    (RetainedBudget.release_spec category (others + lease.size) lease.size (by omega))
  refine Raise.Spec.bind _ (Raise.Spec.modify ?_) fun _ =>
    given.weaken (fun _ start => start) ?_ (fun _ _ impossible => impossible.2)
  · rintro _ rfl
    exact ⟨rfl, counts⟩
  · rintro _ state ⟨same, counted⟩
    refine ⟨by rw [same]; rfl, ?_⟩
    rw [show others = others + lease.size - max lease.size 0 by omega]
    exact counted

end Owned

end UniApi.Streaming
