/-
**Mealy machines with list outputs, and their cascades.**

A streaming parser is a machine that reads one symbol at a time, keeps a state and emits any number
of symbols. What a caller feeds is cut into chunks anywhere; what comes out must not depend on the
cuts. Two facts carry every such argument:

* `run_append`: a run over two inputs is the run over the first, then over the second from the
  state reached;
* `cascade_run`: feeding the output of one machine into the next is itself a machine, so a pipeline
  of stages needs one argument for each stage only.
-/

import Mathlib.Data.List.Basic

namespace UniApi.Lib

variable {σ τ α β γ : Type*}

/-- **A machine that emits a list of symbols at each step.** -/
structure Mealy (σ α β : Type*) where
  /-- The symbols emitted on an input symbol, and the next state. -/
  step : σ → α → List β × σ

namespace Mealy

/-- The symbols a whole input emits, and the state after it. -/
def run (machine : Mealy σ α β) : σ → List α → List β × σ
  | state, [] => ([], state)
  | state, symbol :: rest =>
    let first := machine.step state symbol
    let later := machine.run first.2 rest
    (first.1 ++ later.1, later.2)

variable (machine : Mealy σ α β)

@[simp] theorem run_nil (state : σ) : machine.run state [] = ([], state) := rfl

@[simp] theorem run_cons (state : σ) (symbol : α) (rest : List α) :
    machine.run state (symbol :: rest) =
      ((machine.step state symbol).1 ++ (machine.run (machine.step state symbol).2 rest).1,
        (machine.run (machine.step state symbol).2 rest).2) := rfl

/-- **A run over two inputs** is the run over the first, then over the second. -/
theorem run_append (state : σ) (first second : List α) :
    machine.run state (first ++ second) =
      ((machine.run state first).1 ++ (machine.run (machine.run state first).2 second).1,
        (machine.run (machine.run state first).2 second).2) := by
  induction first generalizing state with
  | nil => rfl
  | cons symbol rest ih => simp [ih]

/-- **The cascade**: the second machine reads what the first one emits. -/
def cascade (first : Mealy σ α β) (second : Mealy τ β γ) : Mealy (σ × τ) α γ where
  step state symbol :=
    let middle := first.step state.1 symbol
    let last := second.run state.2 middle.1
    (last.1, (middle.2, last.2))

/-- A run of a cascade is a run of the second machine over the output of the first. -/
theorem cascade_run (first : Mealy σ α β) (second : Mealy τ β γ) (state : σ × τ)
    (input : List α) :
    (first.cascade second).run state input =
      ((second.run state.2 (first.run state.1 input).1).1,
        ((first.run state.1 input).2, (second.run state.2 (first.run state.1 input).1).2)) := by
  induction input generalizing state with
  | nil => rfl
  | cons symbol rest ih =>
    rw [run_cons, ih, run_cons, run_append]
    rfl

/-- What holds of the state and is kept by each step holds after every run. -/
theorem run_invariant (holds : σ → Prop)
    (keeps : ∀ state symbol, holds state → holds (machine.step state symbol).2)
    {state : σ} (start : holds state) (input : List α) : holds (machine.run state input).2 := by
  induction input generalizing state with
  | nil => exact start
  | cons symbol rest ih => exact ih (keeps state symbol start)

/-- What each step emits from symbols with `takes`, a run emits. -/
theorem run_emits (takes : α → Prop) (emits : β → Prop)
    (each : ∀ state symbol, takes symbol → ∀ out ∈ (machine.step state symbol).1, emits out)
    (state : σ) (input : List α) (all : ∀ symbol ∈ input, takes symbol) :
    ∀ out ∈ (machine.run state input).1, emits out := by
  induction input generalizing state with
  | nil => simp
  | cons symbol rest ih =>
    intro out member
    rw [run_cons, List.mem_append] at member
    rcases member with here | later
    · exact each state symbol (all symbol List.mem_cons_self) out here
    · exact ih _ (fun other member => all other (List.mem_cons_of_mem _ member)) out later

end Mealy

end UniApi.Lib
