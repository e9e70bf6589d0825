/-
**`ProviderModelCircuitBreaker`: one route of a provider and a model, in Python.**

A route keeps the instants of its failures with status 403 or 404. Enough of them in the window open the
route, which is closed when its time has come, without its failures, or by a success.
-/

import Mathlib.Tactic.Common

namespace UniApi.Routing

/-- How many failures in a window open a route, and how long it stays open. -/
structure CircuitSettings where
  threshold : Nat
  window : Nat
  openPeriod : Nat
  threshold_pos : 0 < threshold
  window_pos : 0 < window
  openPeriod_pos : 0 < openPeriod

/-- `_RouteState`. A route without a state has no failures and is closed, and so has one whose
`open_until` is zero. -/
structure RouteState where
  failures : List Nat
  openUntil : Option Nat

/-- A route that is not in the table. -/
def RouteState.absent : RouteState := ⟨[], none⟩

section Circuit

variable (settings : CircuitSettings)

/-- `_prune_locked`. -/
def prune (state : RouteState) (now : Nat) : RouteState :=
  if state.openUntil.any (· ≤ now) then ⟨[], none⟩
  else { state with failures := state.failures.dropWhile fun failed => failed + settings.window < now }

/-- `record_failure`. -/
def recordFailure (state : RouteState) (now status : Nat) : RouteState :=
  if status = 403 ∨ status = 404 then
    let state := prune settings state now
    let state := { state with failures := state.failures ++ [now] }
    if state.openUntil.any (now < ·) then state
    else if state.failures.length < settings.threshold then state
    else { state with openUntil := some (now + settings.openPeriod) }
  else state

/-- `record_success`. -/
def recordSuccess (_ : RouteState) : RouteState := .absent

/-- `is_open`, and the state that it leaves. -/
def isCircuitOpen (state : RouteState) (now : Nat) : Bool × RouteState :=
  let state := prune settings state now
  if state.failures.isEmpty && state.openUntil.isNone then (false, .absent)
  else (state.openUntil.any (now < ·), state)

theorem isCircuitOpen_eq (state : RouteState) (now : Nat) :
    (isCircuitOpen settings state now).1 = state.openUntil.any (now < ·) := by
  obtain ⟨failures, openUntil⟩ := state
  unfold isCircuitOpen prune
  cases openUntil with
  | none =>
    simp only [Option.any_none, Bool.false_eq_true, if_false, Option.isNone_none, Bool.and_true]
    split <;> rfl
  | some time =>
    by_cases past : time ≤ now
    · simp [past]
    · simp [past]

theorem isCircuitOpen_state (state : RouteState) (now : Nat) :
    (isCircuitOpen settings state now).2 = prune settings state now := by
  unfold isCircuitOpen
  dsimp only
  split
  · rename_i nothing
    rw [Bool.and_eq_true, List.isEmpty_iff, Option.isNone_iff_eq_none] at nothing
    generalize prune settings state now = pruned at *
    obtain ⟨failures, openUntil⟩ := pruned
    obtain ⟨rfl, rfl⟩ := nothing
    rfl
  · rfl

end Circuit

end UniApi.Routing
