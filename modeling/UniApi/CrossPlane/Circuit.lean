/-
**The two planes on the circuit of a route.**

The front keeps the failures of a route when it opens, counts the failures of attempts that end while it
is open, and a success does not close it. The Python plane forgets the failures of a route that was open,
and a success closes it.

* `step_alike`: a step that meets neither difference keeps the planes alike;
* `circuits_agree`: in a run of such steps both planes report the route alike at every instant.
-/

import Mathlib.Algebra.Order.Group.Nat
import Mathlib.Data.List.Basic
import UniApi.Front.Circuit

namespace UniApi.CrossPlane

open UniApi.Front UniApi.Routing

/-! ### Runs -/

/-- What is recorded of a route, and a selection. -/
inductive RouteOperation where
  | failure (status : Nat)
  | success
  | select

/-- One route on both planes, at the instant of the last operation. -/
structure Circuits where
  front : RouteCooldown
  python : RouteState
  now : Nat

section Runs

variable (settings : CircuitSettings)

/-- An operation on both planes. -/
def stepCircuits (circuits : Circuits) (now : Nat) (operation : RouteOperation) : Circuits :=
  match operation with
  | .failure status =>
    ⟨coolFailedRoute settings circuits.front now status,
      recordFailure settings circuits.python now status, now⟩
  | .success => ⟨resetRouteFailure circuits.front, recordSuccess circuits.python, now⟩
  | .select => ⟨circuits.front, (isCircuitOpen settings circuits.python now).2, now⟩

/-- A route before its first operation. -/
def Circuits.start : Circuits := ⟨.absent, .absent, 0⟩

/-- A run. -/
def runCircuits (circuits : Circuits) (operations : List (Nat × RouteOperation)) : Circuits :=
  operations.foldl (fun circuits operation =>
    stepCircuits settings circuits operation.1 operation.2) circuits

/-- **An operation that both planes record alike**. No success is recorded while the route is cooling. A
failure that is recorded while it is cooling does not move the end. Otherwise no failure is exactly as
old as the window, and none that is still in the window is from before the route was closed again. -/
def PlainOperation (circuits : Circuits) (now : Nat) : RouteOperation → Prop
  | .select => True
  | .success => channelCooling circuits.front now = false
  | .failure status => status = 403 ∨ status = 404 →
    if channelCooling circuits.front now then
      (kept settings circuits.front now).length + 1 < settings.threshold ∨
        circuits.front.coolingUntil = some (now + settings.openPeriod)
    else
      (∀ failed ∈ (prune settings circuits.python now).failures, failed + settings.window ≠ now) ∧
        ∀ failed ∈ kept settings circuits.front now, circuits.front.coolingUntil.all (· ≤ failed)

/-- A run under a clock that does not go back, of operations that both planes record alike. -/
def PlainRun (circuits : Circuits) : List (Nat × RouteOperation) → Prop
  | [] => True
  | (now, operation) :: rest =>
    circuits.now ≤ now ∧ PlainOperation settings circuits now operation ∧
      PlainRun (stepCircuits settings circuits now operation) rest

end Runs

/-! ### Windows -/

/-- In a list in order, dropping what is too old keeps the rest. -/
theorem dropWhile_eq_filter {times : List Nat} (ordered : times.Pairwise (· ≤ ·)) {old : Nat → Bool}
    (older : ∀ {first second}, first ≤ second → old second → old first) :
    times.dropWhile old = times.filter fun time => !old time := by
  induction times with
  | nil => rfl
  | cons time rest ih =>
    obtain ⟨first, ordered⟩ := List.pairwise_cons.mp ordered
    by_cases isOld : old time
    · rw [List.dropWhile_cons_of_pos isOld, ih ordered, List.filter_cons_of_neg (by simp [isOld])]
    · rw [List.dropWhile_cons_of_neg isOld, eq_comm, List.filter_eq_self]
      intro later isLater
      rcases List.mem_cons.mp isLater with rfl | isRest
      · simpa using isOld
      · simpa using fun laterOld => isOld (older (first later isRest) laterOld)

section Alike

variable {settings : CircuitSettings}

/-- What the planes have in common on a route. -/
structure Alike (settings : CircuitSettings) (circuits : Circuits) : Prop where
  historyOrdered : circuits.front.history.Pairwise (· ≤ ·)
  failuresOrdered : circuits.python.failures.Pairwise (· ≤ ·)
  historyPast : ∀ time ∈ circuits.front.history, time ≤ circuits.now
  failuresPast : ∀ time ∈ circuits.python.failures, time ≤ circuits.now
  /-- The end of an opening is the same, or it is past. -/
  deadline : circuits.python.openUntil = circuits.front.coolingUntil ∨
    circuits.python.openUntil = none ∧ circuits.front.coolingUntil.all (· ≤ circuits.now)
  /-- All failures are from before the end of an opening that was not seen to end. -/
  opened : ∀ time, circuits.python.openUntil = some time →
    ∀ failed ∈ circuits.front.history, failed < time
  /-- A closed route has the failures since it was closed. -/
  failures : circuits.python.openUntil = none → ∀ later, circuits.now ≤ later →
    (circuits.python.failures.filter fun failed => decide (later < failed + settings.window)) =
      circuits.front.history.filter fun failed =>
        decide (later < failed + settings.window) && circuits.front.coolingUntil.all (· ≤ failed)

theorem start_alike : Alike settings .start where
  historyOrdered := .nil
  failuresOrdered := .nil
  historyPast := nofun
  failuresPast := nofun
  deadline := .inl rfl
  opened := nofun
  failures _ _ _ := rfl

variable {circuits : Circuits} {now : Nat}

theorem Alike.report (alike : Alike settings circuits) (later : circuits.now ≤ now) :
    channelCooling circuits.front now = (isCircuitOpen settings circuits.python now).1 := by
  rw [isCircuitOpen_eq, channelCooling]
  rcases alike.deadline with same | ⟨closed, past⟩
  · rw [same]
  · rw [closed]
    cases deadline : circuits.front.coolingUntil with
    | none => rfl
    | some time =>
      rw [deadline] at past
      have past : time ≤ circuits.now := by simpa using past
      simpa using le_trans past later

theorem kept_eq_filter {front : RouteCooldown} (ordered : front.history.Pairwise (· ≤ ·)) (now : Nat) :
    kept settings front now =
      front.history.filter fun failed => decide (now < failed + settings.window) := by
  unfold kept
  rw [dropWhile_eq_filter ordered]
  · refine List.filter_congr fun failed _ => ?_
    rw [← decide_not, decide_eq_decide, not_le]
  · intro first second earlier isOld
    simp only [decide_eq_true_eq] at *
    omega

theorem pruned_eq_filter {python : RouteState} (ordered : python.failures.Pairwise (· ≤ ·))
    (closed : python.openUntil.any (· ≤ now) = false) :
    prune settings python now =
      { python with
        failures := python.failures.filter fun failed => decide (now ≤ failed + settings.window) } := by
  unfold prune
  rw [if_neg (by simp [closed]), dropWhile_eq_filter ordered]
  · congr 1
    refine List.filter_congr fun failed _ => ?_
    rw [← decide_not, decide_eq_decide, not_lt]
  · intro first second earlier isOld
    simp only [decide_eq_true_eq] at *
    omega

theorem select_alike (alike : Alike settings circuits) (later : circuits.now ≤ now) :
    Alike settings ⟨circuits.front, prune settings circuits.python now, now⟩ := by
  by_cases ended : circuits.python.openUntil.any (· ≤ now) = true
  · have pruned : prune settings circuits.python now = ⟨[], none⟩ := if_pos ended
    obtain ⟨time, isTime, past⟩ := (Option.any_eq_true _ _).mp ended
    have past : time ≤ now := by simpa using past
    have front : circuits.front.coolingUntil = some time := by
      rcases alike.deadline with same | ⟨closed, -⟩
      · rw [← same, isTime]
      · rw [isTime] at closed
        cases closed
    rw [pruned]
    refine ⟨alike.historyOrdered, .nil, fun failed isFailed =>
      le_trans (alike.historyPast failed isFailed) later, nofun, .inr ⟨rfl, ?_⟩, nofun, ?_⟩
    · rw [front]
      simpa using past
    · intro _ _ _
      rw [front, List.filter_nil, eq_comm, List.filter_eq_nil_iff]
      intro failed isFailed
      have before := alike.opened time isTime failed isFailed
      simp [before]
  · have closed : circuits.python.openUntil.any (· ≤ now) = false := by simpa using ended
    rw [pruned_eq_filter alike.failuresOrdered closed]
    refine ⟨alike.historyOrdered, alike.failuresOrdered.filter _, fun failed isFailed =>
      le_trans (alike.historyPast failed isFailed) later, fun failed isFailed =>
        le_trans (alike.failuresPast failed (List.mem_of_mem_filter isFailed)) later, ?_,
      alike.opened, ?_⟩
    · refine alike.deadline.imp id fun ⟨isClosed, past⟩ => ⟨isClosed, ?_⟩
      cases deadline : circuits.front.coolingUntil with
      | none => rfl
      | some time =>
        rw [deadline] at past
        have past : time ≤ circuits.now := by simpa using past
        simpa using le_trans past later
    · intro isClosed instant laterStill
      rw [← alike.failures isClosed instant (le_trans later laterStill), List.filter_filter]
      refine List.filter_congr fun failed _ => ?_
      rw [Bool.and_eq_left_iff_imp, decide_eq_true_eq, decide_eq_true_eq]
      exact fun inWindow => le_trans laterStill inWindow.le

/-- A success of a route that is not cooling keeps the planes alike. -/
theorem success_alike (closed : channelCooling circuits.front now = false) :
    Alike settings ⟨resetRouteFailure circuits.front, recordSuccess circuits.python, now⟩ where
  historyOrdered := .nil
  failuresOrdered := .nil
  historyPast := nofun
  failuresPast := nofun
  deadline := by
    refine .inr ⟨rfl, ?_⟩
    unfold channelCooling at closed
    cases deadline : circuits.front.coolingUntil with
    | none => simp [resetRouteFailure, deadline]
    | some time => simpa [resetRouteFailure, deadline] using closed
  opened := nofun
  failures _ _ _ := rfl

theorem ordered_append {times : List Nat} (ordered : times.Pairwise (· ≤ ·))
    (past : ∀ time ∈ times, time ≤ now) : (times ++ [now]).Pairwise (· ≤ ·) := by
  refine List.pairwise_append.mpr ⟨ordered, List.pairwise_singleton .., ?_⟩
  intro time isTime last isLast
  rw [List.mem_singleton.mp isLast]
  exact past time isTime

theorem past_append {times : List Nat} (past : ∀ time ∈ times, time ≤ now) :
    ∀ time ∈ times ++ [now], time ≤ now := by
  intro time isTime
  rcases List.mem_append.mp isTime with isOld | isNew
  · exact past time isOld
  · exact (List.mem_singleton.mp isNew).le

theorem kept_ordered {front : RouteCooldown} (ordered : front.history.Pairwise (· ≤ ·)) (now : Nat) :
    (kept settings front now).Pairwise (· ≤ ·) :=
  ordered.sublist (List.dropWhile_sublist _)

theorem mem_of_kept {front : RouteCooldown} {now failed : Nat}
    (isKept : failed ∈ kept settings front now) : failed ∈ front.history :=
  (List.dropWhile_sublist _).subset isKept

/-- **A failure of a cooling route** that does not move the end keeps the planes alike. -/
theorem failure_cooling_alike (alike : Alike settings circuits)
    {now status : Nat} (later : circuits.now ≤ now) (counted : status = 403 ∨ status = 404)
    (cooling : channelCooling circuits.front now = true)
    (unmoved : (kept settings circuits.front now).length + 1 < settings.threshold ∨
      circuits.front.coolingUntil = some (now + settings.openPeriod)) :
    Alike settings (stepCircuits settings circuits now (.failure status)) := by
  obtain ⟨time, isTime, isLater⟩ := (Option.any_eq_true _ _).mp cooling
  have isLater : now < time := by simpa using isLater
  have same : circuits.python.openUntil = some time := by
    rcases alike.deadline with same | ⟨-, past⟩
    · rw [same, isTime]
    · rw [isTime] at past
      have past : time ≤ circuits.now := by simpa using past
      omega
  have front : coolFailedRoute settings circuits.front now status =
      ⟨kept settings circuits.front now ++ [now], some time⟩ := by
    unfold coolFailedRoute
    rw [if_pos counted]
    dsimp only
    split
    · rename_i enough
      rcases unmoved with few | same
      · rw [List.length_append, List.length_singleton] at enough
        omega
      · rw [← same, isTime]
    · rw [isTime]
  have python : recordFailure settings circuits.python now status =
      ⟨(prune settings circuits.python now).failures ++ [now], some time⟩ := by
    have pruned : (prune settings circuits.python now).openUntil = some time := by
      unfold prune
      rw [same, if_neg (by simpa using isLater)]
    unfold recordFailure
    rw [if_pos counted]
    dsimp only
    rw [pruned, if_pos (by simpa using isLater)]
  have pruned := select_alike alike later
  simp only [stepCircuits, front, python]
  refine ⟨ordered_append (kept_ordered alike.historyOrdered now) ?_,
    ordered_append pruned.failuresOrdered pruned.failuresPast, past_append ?_,
    past_append pruned.failuresPast, .inl rfl, ?_, nofun⟩
  · exact fun failed isKept => pruned.historyPast failed (mem_of_kept isKept)
  · exact fun failed isKept => pruned.historyPast failed (mem_of_kept isKept)
  · rintro _ ⟨⟩ failed isFailed
    rcases List.mem_append.mp isFailed with isOld | isNew
    · exact alike.opened time same failed (mem_of_kept isOld)
    · rwa [List.mem_singleton.mp isNew]

/-- A route that is not cooling has the same failures on both planes, if none is as old as the window or
from before the route was closed. -/
theorem kept_eq_pruned (alike : Alike settings circuits)
    (later : circuits.now ≤ now) (closed : channelCooling circuits.front now = false)
    (inside : ∀ failed ∈ (prune settings circuits.python now).failures,
      failed + settings.window ≠ now)
    (recent : ∀ failed ∈ kept settings circuits.front now,
      circuits.front.coolingUntil.all (· ≤ failed)) :
    (prune settings circuits.python now).openUntil = none ∧
      (prune settings circuits.python now).failures = kept settings circuits.front now := by
  have pruned := select_alike alike later
  have isClosed : (prune settings circuits.python now).openUntil = none := by
    unfold channelCooling at closed
    unfold prune
    split
    · rfl
    · rename_i notEnded
      rcases alike.deadline with same | ⟨isClosed, -⟩
      · rw [← same] at closed
        cases deadline : circuits.python.openUntil with
        | none => rfl
        | some time =>
          rw [deadline] at closed notEnded
          simp only [Option.any_some, decide_eq_false_iff_not, decide_eq_true_eq] at closed notEnded
          omega
      · exact isClosed
  have failures := pruned.failures isClosed now le_rfl
  dsimp only at failures
  refine ⟨isClosed, ?_⟩
  calc (prune settings circuits.python now).failures
    _ = (prune settings circuits.python now).failures.filter fun failed =>
        decide (now < failed + settings.window) := by
      rw [eq_comm, List.filter_eq_self]
      intro failed isFailed
      have kept : now ≤ failed + settings.window := by
        have notEnded : circuits.python.openUntil.any (· ≤ now) = false := by
          by_contra ended
          rw [Bool.not_eq_false] at ended
          rw [prune, if_pos ended] at isFailed
          cases isFailed
        rw [pruned_eq_filter alike.failuresOrdered notEnded] at isFailed
        simpa using (List.mem_filter.mp isFailed).2
      exact decide_eq_true (lt_of_le_of_ne kept (inside failed isFailed).symm)
    _ = circuits.front.history.filter fun failed =>
        decide (now < failed + settings.window) && circuits.front.coolingUntil.all (· ≤ failed) :=
      failures
    _ = kept settings circuits.front now := by
      rw [kept_eq_filter alike.historyOrdered] at recent ⊢
      refine List.filter_congr fun failed isFailed => ?_
      rw [Bool.and_eq_left_iff_imp]
      exact fun inWindow => recent failed (List.mem_filter.mpr ⟨isFailed, inWindow⟩)

/-- **A failure of a route that is not cooling** keeps the planes alike. -/
theorem failure_closed_alike (alike : Alike settings circuits)
    {now status : Nat} (later : circuits.now ≤ now) (counted : status = 403 ∨ status = 404)
    (closed : channelCooling circuits.front now = false)
    (inside : ∀ failed ∈ (prune settings circuits.python now).failures,
      failed + settings.window ≠ now)
    (recent : ∀ failed ∈ kept settings circuits.front now,
      circuits.front.coolingUntil.all (· ≤ failed)) :
    Alike settings (stepCircuits settings circuits now (.failure status)) := by
  obtain ⟨isClosed, same⟩ := kept_eq_pruned alike later closed inside recent
  have ordered : (kept settings circuits.front now).Pairwise (· ≤ ·) :=
    kept_ordered alike.historyOrdered now
  have past : ∀ failed ∈ kept settings circuits.front now, failed ≤ now :=
    fun failed isKept => le_trans (alike.historyPast failed (mem_of_kept isKept)) later
  have openPeriod := settings.openPeriod_pos
  have python : recordFailure settings circuits.python now status =
      if (kept settings circuits.front now ++ [now]).length < settings.threshold then
        ⟨kept settings circuits.front now ++ [now], none⟩
      else ⟨kept settings circuits.front now ++ [now], some (now + settings.openPeriod)⟩ := by
    unfold recordFailure
    rw [if_pos counted]
    dsimp only
    rw [isClosed, same, Option.any_none, if_neg Bool.false_ne_true]
  have front : coolFailedRoute settings circuits.front now status =
      if settings.threshold ≤ (kept settings circuits.front now ++ [now]).length then
        ⟨kept settings circuits.front now ++ [now], some (now + settings.openPeriod)⟩
      else ⟨kept settings circuits.front now ++ [now], circuits.front.coolingUntil⟩ := by
    unfold coolFailedRoute
    rw [if_pos counted]
  by_cases few : (kept settings circuits.front now ++ [now]).length < settings.threshold
  · rw [if_pos few] at python
    rw [if_neg (not_le.mpr few)] at front
    have ended : circuits.front.coolingUntil.all (· ≤ now) := by
      unfold channelCooling at closed
      cases deadline : circuits.front.coolingUntil with
      | none => rfl
      | some time => simpa [deadline] using closed
    simp only [stepCircuits, front, python]
    refine ⟨ordered_append ordered past, ordered_append ordered past, past_append past,
      past_append past, .inr ⟨rfl, ended⟩, nofun, fun _ instant _ => ?_⟩
    refine List.filter_congr fun failed isFailed => ?_
    rw [eq_comm, Bool.and_eq_left_iff_imp]
    intro _
    rcases List.mem_append.mp isFailed with isOld | isNew
    · exact recent failed isOld
    · rwa [List.mem_singleton.mp isNew]
  · rw [if_neg few] at python
    rw [if_pos (not_lt.mp few)] at front
    simp only [stepCircuits, front, python]
    refine ⟨ordered_append ordered past, ordered_append ordered past, past_append past,
      past_append past, .inl rfl, ?_, nofun⟩
    rintro _ ⟨⟩ failed isFailed
    have before := past_append past failed isFailed
    omega

/-- **A step** of an operation that both planes record alike keeps them alike. -/
theorem step_alike (alike : Alike settings circuits)
    {operation : RouteOperation} (later : circuits.now ≤ now)
    (plain : PlainOperation settings circuits now operation) :
    Alike settings (stepCircuits settings circuits now operation) := by
  cases operation with
  | select =>
    simp only [stepCircuits, isCircuitOpen_state]
    exact select_alike alike later
  | success => exact success_alike plain
  | failure status =>
    by_cases counted : status = 403 ∨ status = 404
    · have plain := plain counted
      cases cooling : channelCooling circuits.front now with
      | true =>
        rw [cooling, if_pos rfl] at plain
        exact failure_cooling_alike alike later counted cooling plain
      | false =>
        rw [cooling, if_neg Bool.false_ne_true] at plain
        exact failure_closed_alike alike later counted cooling plain.1 plain.2
    · -- other failures are not recorded; only the clock moves
      simp only [stepCircuits, coolFailedRoute, recordFailure, if_neg counted]
      refine ⟨alike.historyOrdered, alike.failuresOrdered,
        fun failed isFailed => le_trans (alike.historyPast failed isFailed) later,
        fun failed isFailed => le_trans (alike.failuresPast failed isFailed) later,
        alike.deadline.imp id (And.imp id ?_), alike.opened, fun isClosed instant laterStill =>
          alike.failures isClosed instant (le_trans later laterStill)⟩
      intro past
      cases deadline : circuits.front.coolingUntil with
      | none => rfl
      | some time =>
        rw [deadline] at past
        have past : time ≤ circuits.now := by simpa using past
        simpa using le_trans past later

theorem run_alike (alike : Alike settings circuits)
    {operations : List (Nat × RouteOperation)} (plain : PlainRun settings circuits operations) :
    Alike settings (runCircuits settings circuits operations) := by
  induction operations generalizing circuits with
  | nil => exact alike
  | cons operation rest ih =>
    obtain ⟨later, here, plain⟩ := plain
    exact ih (step_alike alike later here) plain

/-- **The circuits agree**: after any run of operations that both planes record alike, they report the
route alike at every instant from the last operation on. -/
theorem circuits_agree (settings : CircuitSettings) (operations : List (Nat × RouteOperation))
    (plain : PlainRun settings .start operations) (now : Nat)
    (later : (runCircuits settings .start operations).now ≤ now) :
    channelCooling (runCircuits settings .start operations).front now =
      (isCircuitOpen settings (runCircuits settings .start operations).python now).1 :=
  (run_alike start_alike plain).report later

end Alike

/-! ### A route of three failures -/

/-- The circuit of the environment's defaults, in seconds. -/
def defaultCircuit : CircuitSettings := ⟨3, 120, 300, by decide, by decide, by decide⟩

instance (settings : CircuitSettings) (circuits : Circuits) (now : Nat) (operation : RouteOperation) :
    Decidable (PlainOperation settings circuits now operation) := by
  cases operation <;> unfold PlainOperation <;> infer_instance

instance decidablePlainRun (settings : CircuitSettings) :
    ∀ circuits operations, Decidable (PlainRun settings circuits operations)
  | _, [] => inferInstanceAs (Decidable True)
  | circuits, (now, operation) :: rest =>
    haveI := decidablePlainRun settings (stepCircuits settings circuits now operation) rest
    inferInstanceAs (Decidable (_ ∧ _ ∧ _))

/-- Three failures that open a route, and a success after it is closed. -/
def openedAndClosed : List (Nat × RouteOperation) :=
  [(0, .failure 403), (1, .failure 404), (2, .failure 403), (10, .select), (302, .success)]

theorem circuits_agree_closed :
    channelCooling (runCircuits defaultCircuit .start openedAndClosed).front 400 =
      (isCircuitOpen defaultCircuit (runCircuits defaultCircuit .start openedAndClosed).python 400).1 :=
  circuits_agree defaultCircuit openedAndClosed (by decide) 400 (by decide)

/-- **A failure of an attempt that began before the opening** keeps the route cooling in the front, and a
success of such an attempt does not close it there. -/
theorem late_outcomes_differ :
    channelCooling (runCircuits defaultCircuit .start [(0, .failure 403), (1, .failure 404),
        (2, .failure 403), (3, .failure 403)]).front 302 = true ∧
      (isCircuitOpen defaultCircuit (runCircuits defaultCircuit .start [(0, .failure 403), (1, .failure 404),
        (2, .failure 403), (3, .failure 403)]).python 302).1 = false ∧
      channelCooling (runCircuits defaultCircuit .start [(0, .failure 403), (1, .failure 404),
        (2, .failure 403), (3, .success)]).front 4 = true ∧
      (isCircuitOpen defaultCircuit (runCircuits defaultCircuit .start [(0, .failure 403), (1, .failure 404),
        (2, .failure 403), (3, .success)]).python 4).1 = false := by
  decide

end UniApi.CrossPlane
