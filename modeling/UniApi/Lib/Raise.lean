/-
**Calls that may raise and keep what they did.**

`Raise ε σ α` is a call on a state `σ` that returns a value or raises, as a method of a mutable
object does: an exception does not undo the changes made before it. `tryExcept` is
the handler. The rules:

* `bind_ok`: a sequence that returned took two calls that returned;
* `Spec`: from a precondition a call returns into one postcondition or raises into another, with a
  rule for each way to build a call (`Spec.bind`, `Spec.tryExcept`, `Spec.tryFinally`, ...);
* `Keeps`: a call keeps an invariant, whether it returns or raises.
-/

import Mathlib.Tactic.Common

namespace UniApi.Lib

/-- A call that returns or raises, and its effect on the state either way. -/
def Raise (ε σ α : Type) := σ → Except ε α × σ

namespace Raise

variable {ε σ τ α β : Type}

instance : Monad (Raise ε σ) where
  pure value state := (.ok value, state)
  bind call next state :=
    match call state with
    | (.ok value, after) => next value after
    | (.error error, after) => (.error error, after)

/-- `raise`. -/
def throw (error : ε) : Raise ε σ α := fun state => (.error error, state)

/-- The state. -/
def get : Raise ε σ σ := fun state => (.ok state, state)

/-- A change of the state. -/
def modify (change : σ → σ) : Raise ε σ Unit := fun state => (.ok (), change state)

/-- A change of the state that also gives a value. -/
def update (change : σ → α × σ) : Raise ε σ α := fun state =>
  (.ok (change state).1, (change state).2)

/-- A value, or an exception. -/
def ofExcept (outcome : Except ε α) : Raise ε σ α := fun state => (outcome, state)

/-- `try: ... except: handler`. -/
def tryExcept (call : Raise ε σ α) (handler : ε → Raise ε σ α) : Raise ε σ α := fun state =>
  match call state with
  | (.ok value, after) => (.ok value, after)
  | (.error error, after) => handler error after

/-- `try: ... finally: cleanup`. -/
def tryFinally (call : Raise ε σ α) (cleanup : Raise ε σ Unit) : Raise ε σ α := fun state =>
  match cleanup (call state).2 with
  | (.ok _, after) => ((call state).1, after)
  | (.error error, after) => (.error error, after)

/-- A call whose exception is dropped. -/
def attempt (call : Raise ε σ Unit) : Raise ε σ Unit := fun state => (.ok (), (call state).2)

/-- A task that runs once and keeps its result; later callers get that result. -/
def once (result : σ → Option (Except ε α)) (keep : Except ε α → σ → σ) (call : Raise ε σ α) :
    Raise ε σ α := fun state =>
  match result state with
  | some outcome => (outcome, state)
  | none => ((call state).1, keep (call state).1 (call state).2)

/-- A call on a part of the state. -/
def zoom (part : σ → τ) (put : τ → σ → σ) (call : Raise ε τ α) : Raise ε σ α := fun state =>
  ((call (part state)).1, put (call (part state)).2 state)

@[simp] theorem pure_apply (value : α) (state : σ) :
    (pure value : Raise ε σ α) state = (.ok value, state) := rfl

@[simp] theorem throw_apply (error : ε) (state : σ) :
    (throw error : Raise ε σ α) state = (.error error, state) := rfl

@[simp] theorem ofExcept_apply (outcome : Except ε α) (state : σ) :
    (ofExcept outcome : Raise ε σ α) state = (outcome, state) := rfl

@[simp] theorem get_apply (state : σ) : (get : Raise ε σ σ) state = (.ok state, state) := rfl

@[simp] theorem modify_apply (change : σ → σ) (state : σ) :
    (modify change : Raise ε σ Unit) state = (.ok (), change state) := rfl

@[simp] theorem update_apply (change : σ → α × σ) (state : σ) :
    (update change : Raise ε σ α) state = (.ok (change state).1, (change state).2) := rfl

theorem bind_apply (call : Raise ε σ α) (next : α → Raise ε σ β) (state : σ) :
    (call >>= next) state =
      match call state with
      | (.ok value, after) => next value after
      | (.error error, after) => (.error error, after) := rfl

variable {call : Raise ε σ α}

/-- **A sequence that returned** is two calls that returned. -/
theorem bind_ok {next : α → Raise ε σ β} {state after : σ} {value : β} :
    (call >>= next) state = (.ok value, after) ↔
      ∃ middle between, call state = (.ok middle, between) ∧
        next middle between = (.ok value, after) := by
  rw [bind_apply]
  constructor
  · intro returned
    split at returned
    · rename_i middle between here
      exact ⟨middle, between, here, returned⟩
    · cases returned
  · rintro ⟨middle, between, here, later⟩
    rw [here]
    exact later

/-- A sequence that raised did so in its first call, or in its second one. -/
theorem bind_error {next : α → Raise ε σ β} {state after : σ} {error : ε} :
    (call >>= next) state = (.error error, after) ↔
      call state = (.error error, after) ∨
        ∃ middle between, call state = (.ok middle, between) ∧
          next middle between = (.error error, after) := by
  rw [bind_apply]
  constructor
  · intro raised
    split at raised
    · rename_i middle between here
      exact Or.inr ⟨middle, between, here, raised⟩
    · rename_i error' between here
      cases raised
      exact Or.inl here
  · rintro (here | ⟨middle, between, here, later⟩)
    · rw [here]
    · rw [here]
      exact later

/-- A call that returned a value, with the state it left. -/
theorem eq_of_returned {state : σ} {value : α}
    (returned : (call state).1 = .ok value) : call state = (.ok value, (call state).2) :=
  Prod.ext returned rfl

/-! ### Pre- and postconditions -/

/-- An outcome in `post` if it is a value, in `fails` if it is an exception. -/
def Lands (post : α → σ → Prop) (fails : ε → σ → Prop) : Except ε α × σ → Prop
  | (.ok value, after) => post value after
  | (.error error, after) => fails error after

theorem Lands.returns {post : α → σ → Prop} {outcome : Except ε α × σ}
    (lands : Lands post (fun _ _ => False) outcome) :
    ∃ value after, outcome = (.ok value, after) ∧ post value after := by
  obtain ⟨error | value, after⟩ := outcome
  · exact lands.elim
  · exact ⟨value, after, rfl, lands⟩

/-- From a state with `pre`, the call returns into `post` or raises into `fails`. -/
def Spec (pre : σ → Prop) (call : Raise ε σ α) (post : α → σ → Prop) (fails : ε → σ → Prop) : Prop :=
  ∀ state, pre state → Lands post fails (call state)

section Spec

variable {pre : σ → Prop} {post : α → σ → Prop} {fails : ε → σ → Prop}

theorem Spec.pure {value : α} (holds : ∀ state, pre state → post value state) :
    Spec pre (Pure.pure value) post fails := holds

theorem Spec.throw {error : ε} (holds : ∀ state, pre state → fails error state) :
    Spec pre (throw error : Raise ε σ α) post fails := holds

theorem Spec.get {post : σ → σ → Prop} (holds : ∀ state, pre state → post state state) :
    Spec pre (get : Raise ε σ σ) post fails := holds

theorem Spec.modify {change : σ → σ} {post : Unit → σ → Prop}
    (holds : ∀ state, pre state → post () (change state)) :
    Spec pre (modify change : Raise ε σ Unit) post fails := holds

theorem Spec.modify_at {change : σ → σ} {known : σ} :
    Spec (fun state => state = known) (Raise.modify change : Raise ε σ Unit)
      (fun _ state => state = change known) fails :=
  Spec.modify fun _ same => same ▸ rfl

theorem Spec.update {change : σ → α × σ}
    (holds : ∀ state, pre state → post (change state).1 (change state).2) :
    Spec pre (update change : Raise ε σ α) post fails := holds

/-- **Sequencing.** -/
theorem Spec.bind {call : Raise ε σ β} {next : β → Raise ε σ α} (middle : β → σ → Prop)
    (first : Spec pre call middle fails) (later : ∀ value, Spec (middle value) (next value) post fails) :
    Spec pre (call >>= next) post fails := by
  intro state start
  have here := first state start
  rw [bind_apply]
  cases outcome : call state with
  | mk result after =>
    rw [outcome] at here
    cases result with
    | ok value => exact later value after here
    | error error => exact here

/-- **Reading the state** makes it known to the rest of the call. -/
theorem Spec.bind_get {next : σ → Raise ε σ α}
    (later : ∀ seen, pre seen → Spec (fun state => state = seen) (next seen) post fails) :
    Spec pre (Raise.get >>= next) post fails :=
  fun state start => later state start state rfl

theorem Spec.bind_get_at {next : σ → Raise ε σ α} {known : σ}
    (later : Spec (fun state => state = known) (next known) post fails) :
    Spec (fun state => state = known) (Raise.get >>= next) post fails :=
  Spec.bind_get fun _ same => same ▸ later

/-- **Handling.** -/
theorem Spec.tryExcept {handler : ε → Raise ε σ α} (raised : ε → σ → Prop)
    (body : Spec pre call post raised) (handle : ∀ error, Spec (raised error) (handler error) post fails) :
    Spec pre (tryExcept call handler) post fails := by
  intro state start
  have here := body state start
  unfold Raise.tryExcept
  cases outcome : call state with
  | mk result after =>
    rw [outcome] at here
    cases result with
    | ok value => exact here
    | error error => exact handle error after here

/-- **Cleaning up**, from what holds whether the body returned or raised. -/
theorem Spec.tryFinally {cleanup : Raise ε σ Unit} {post : σ → Prop}
    (middle : σ → Prop) (body : Spec pre call (fun _ => middle) fun _ => middle)
    (clean : Spec middle cleanup (fun _ => post) fun _ => post) :
    Spec pre (tryFinally call cleanup) (fun _ => post) fun _ => post := by
  intro state start
  have between : middle (call state).2 := by
    have here := body state start
    rcases outcome : call state with ⟨_ | _, after⟩ <;> rw [outcome] at here <;> exact here
  have here := clean _ between
  unfold Raise.tryFinally
  rcases outcome : cleanup (call state).2 with ⟨_ | _, after⟩ <;> rw [outcome] at here
  · exact here
  · rcases (call state).1 with _ | _ <;> exact here

/-- **Cleaning up**, from what holds when the body returned and from what holds when it raised. -/
theorem Spec.finally {cleanup : Raise ε σ Unit} (middle : α → σ → Prop)
    (raised : ε → σ → Prop) (body : Spec pre call middle raised)
    (returned : ∀ value, Spec (middle value) cleanup (fun _ => post value) fails)
    (threw : ∀ error, Spec (raised error) cleanup (fun _ => fails error) fails) :
    Spec pre (Raise.tryFinally call cleanup) post fails := by
  intro state start
  have here := body state start
  unfold Raise.tryFinally
  rcases outcome : call state with ⟨error | value, after⟩ <;> rw [outcome] at here
  · have later := threw error after here
    rcases cleaned : cleanup after with ⟨_ | _, _⟩ <;> rw [cleaned] at later <;> exact later
  · have later := returned value after here
    rcases cleaned : cleanup after with ⟨_ | _, _⟩ <;> rw [cleaned] at later <;> exact later

theorem Spec.attempt {call : Raise ε σ Unit} {post : σ → Prop}
    (body : Spec pre call (fun _ => post) fun _ => post) :
    Spec pre (attempt call) (fun _ => post) fails := by
  intro state start
  have here := body state start
  unfold Raise.attempt
  rcases outcome : call state with ⟨_ | _, after⟩ <;> rw [outcome] at here <;> exact here

/-- **Running once.** -/
theorem Spec.once {result : σ → Option (Except ε α)} {keep : Except ε α → σ → σ}
    (again : ∀ state outcome, pre state → result state = some outcome → Lands post fails (outcome, state))
    (first : Spec (fun state => pre state ∧ result state = none) call
      (fun value after => post value (keep (.ok value) after))
      fun error after => fails error (keep (.error error) after)) :
    Spec pre (once result keep call) post fails := by
  intro state start
  unfold Raise.once
  split
  · exact again state _ start ‹_›
  · have here := first state ⟨start, ‹_›⟩
    rcases outcome : call state with ⟨_ | _, after⟩ <;> rw [outcome] at here <;> exact here

/-- **Consequence.** -/
theorem Spec.weaken {pre' : σ → Prop} {post' : α → σ → Prop}
    {fails' : ε → σ → Prop} (spec : Spec pre call post fails) (before : ∀ state, pre' state → pre state)
    (returns : ∀ value state, post value state → post' value state)
    (raises : ∀ error state, fails error state → fails' error state) :
    Spec pre' call post' fails' := by
  intro state start
  have here := spec state (before state start)
  cases outcome : call state with
  | mk result after =>
    rw [outcome] at here
    cases result with
    | ok value => exact returns value after here
    | error error => exact raises error after here

theorem Spec.at {state : σ} (spec : Spec pre call post fails)
    (start : pre state) : Spec (fun seen => seen = state) call post fails :=
  fun _ same => same ▸ spec state start

theorem Spec.returning {post' : α → σ → Prop}
    (spec : Spec pre call post fails) (returns : ∀ value state, post value state → post' value state) :
    Spec pre call post' fails :=
  spec.weaken (fun _ start => start) returns fun _ _ raised => raised

theorem Spec.raising {fails' : ε → σ → Prop}
    (spec : Spec pre call post fails) (raises : ∀ error state, fails error state → fails' error state) :
    Spec pre call post fails' :=
  spec.weaken (fun _ start => start) (fun _ _ done => done) raises

/-- A precondition about some value is shown for each value. -/
theorem Spec.exists {pre : β → σ → Prop} (each : ∀ value, Spec (pre value) call post fails) :
    Spec (fun state => ∃ value, pre value state) call post fails :=
  fun state ⟨value, start⟩ => each value state start

theorem spec_at_each
    (each : ∀ known, pre known → Spec (fun state => state = known) call post fails) :
    Spec pre call post fails := fun state start => each state start state rfl

theorem Spec.both {post' : α → σ → Prop} {fails' : ε → σ → Prop}
    (spec : Spec pre call post fails) (other : Spec pre call post' fails') :
    Spec pre call (fun value state => post value state ∧ post' value state)
      (fun error state => fails error state ∧ fails' error state) := by
  intro state start
  have here := spec state start
  have there := other state start
  rcases outcome : call state with ⟨_ | _, after⟩ <;> rw [outcome] at here there
  all_goals exact ⟨here, there⟩

/-- A fact in the precondition that is not about the state is an assumption. -/
theorem Spec.given {fact : Prop} (assuming : fact → Spec pre call post fails) :
    Spec (fun state => fact ∧ pre state) call post fails :=
  fun state start => assuming start.1 state start.2

theorem Spec.ite {condition : Prop} [Decidable condition] {yes no : Raise ε σ α}
    (holds : condition → Spec pre yes post fails) (fails' : ¬ condition → Spec pre no post fails) :
    Spec pre (if condition then yes else no) post fails := by
  split
  · exact holds ‹_›
  · exact fails' ‹_›

/-- A call on a part of the state. -/
theorem Spec.zoom {part : σ → τ} {put : τ → σ → σ} {call : Raise ε τ α}
    (inner : ∀ state, pre state → Spec (fun seen => seen = part state) call
      (fun value after => post value (put after state))
      (fun error after => fails error (put after state))) :
    Spec pre (zoom part put call) post fails := by
  intro state start
  have here := inner state start (part state) rfl
  unfold Raise.zoom
  cases outcome : call (part state) with
  | mk result after =>
    rw [outcome] at here
    cases result with
    | ok value => exact here
    | error error => exact here

end Spec

/-! ### Invariants -/

/-- **The call keeps an invariant**, whether it returns or raises. -/
def Keeps (invariant : σ → Prop) (call : Raise ε σ α) : Prop :=
  Spec invariant call (fun _ => invariant) (fun _ => invariant)

section Keeps

variable {invariant : σ → Prop} {call : Raise ε σ α}

theorem Keeps.pure {value : α} : Keeps invariant (Pure.pure value : Raise ε σ α) :=
  Spec.pure fun _ holds => holds

theorem Keeps.throw {error : ε} : Keeps invariant (Raise.throw error : Raise ε σ α) :=
  Spec.throw fun _ holds => holds

theorem Keeps.get : Keeps invariant (Raise.get : Raise ε σ σ) := Spec.get fun _ holds => holds

theorem Keeps.modify {change : σ → σ}
    (keeps : ∀ state, invariant state → invariant (change state)) :
    Keeps invariant (Raise.modify change : Raise ε σ Unit) := Spec.modify keeps

theorem Keeps.bind {next : α → Raise ε σ β} (first : Keeps invariant call)
    (later : ∀ value, Keeps invariant (next value)) : Keeps invariant (call >>= next) :=
  Spec.bind _ first later

theorem Keeps.ite {condition : Prop} [Decidable condition] {other : Raise ε σ α}
    (holds : Keeps invariant call) (fails : Keeps invariant other) :
    Keeps invariant (if condition then call else other) :=
  Spec.ite (fun _ => holds) fun _ => fails

theorem Keeps.tryExcept {handler : ε → Raise ε σ α} (body : Keeps invariant call)
    (handle : ∀ error, Keeps invariant (handler error)) :
    Keeps invariant (Raise.tryExcept call handler) :=
  Spec.tryExcept _ body handle

end Keeps

end Raise

end UniApi.Lib
