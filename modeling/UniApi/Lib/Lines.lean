/-
**Lines, and line endings that wait for their LF.**

* `linesFrom`: the lines of a text, with CRLF, CR and LF each ending one of them;
* `waitingNewlines`: turns every line ending into LF, and holds a CR back until the symbol behind it
  is known (`waitingNewlines_run`: with what it holds at the end it gives the normalized text);
* `cutLines`: cuts at each LF (`linesFrom_eq`: behind the other machine it gives the lines).
-/

import UniApi.Lib.LineEndings

set_option linter.unusedSectionVars false

namespace UniApi.Lib

variable {α : Type*} [DecidableEq α]

/-! ### Lines -/

/-- A last line that no ending follows. -/
def lastLine (line : List α) : List (List α) := if line = [] then [] else [line]

/-- **The lines of a text** behind the beginning `line` of its first one. CRLF is one ending. -/
def linesFrom (cr lf : α) (line : List α) : List α → List (List α)
  | [] => lastLine line
  | [symbol] =>
    if symbol = cr ∨ symbol = lf then [line] else [line ++ [symbol]]
  | first :: second :: rest =>
    if first = cr ∧ second = lf then line :: linesFrom cr lf [] rest
    else if first = cr ∨ first = lf then line :: linesFrom cr lf [] (second :: rest)
    else linesFrom cr lf (line ++ [first]) (second :: rest)

/-- Cuts at each LF. The state is the line so far. -/
def cutLines (lf : α) : Mealy (List α) α (List α) where
  step line symbol := if symbol = lf then ([line], []) else ([], line ++ [symbol])

section Lines

variable {cr lf : α}

theorem cutLines_step_lf (line : List α) : (cutLines lf).step line lf = ([line], []) := by
  simp only [cutLines, if_pos]

theorem cutLines_step_plain {symbol : α} (line : List α) (notLf : symbol ≠ lf) :
    (cutLines lf).step line symbol = ([], line ++ [symbol]) := by
  simp only [cutLines, if_neg notLf]

/-- A text with its line endings turned into LF, in front of one more symbol. -/
theorem normalizeLines_cons (different : cr ≠ lf) {first : α} {rest : List α}
    (apart : ¬ (first = cr ∧ rest.head? = some lf)) :
    normalizeLines cr lf (first :: rest) =
      (if first = cr ∨ first = lf then lf else first) :: normalizeLines cr lf rest := by
  have head : (if first = cr then lf else first) = if first = cr ∨ first = lf then lf
      else first := by
    by_cases isLf : first = lf
    · rw [isLf, if_neg different.symm, if_pos (.inr rfl)]
    · simp only [isLf, or_false]
  rw [← head]
  cases rest with
  | nil => rfl
  | cons second rest =>
    have notPair : ¬ (first = cr ∧ second = lf) := fun pair => apart ⟨pair.1, congrArg some pair.2⟩
    rw [normalizeLines, replaceCrLf, if_neg notPair]
    rfl

theorem normalizeLines_pair (different : cr ≠ lf) (rest : List α) :
    normalizeLines cr lf (cr :: lf :: rest) = lf :: normalizeLines cr lf rest := by
  rw [normalizeLines, replaceCrLf, if_pos ⟨rfl, rfl⟩, replaceCr, List.map_cons,
    if_neg different.symm]
  rfl

/-- **Cutting the normalized text gives the lines.** -/
theorem linesFrom_eq (different : cr ≠ lf) (line text : List α) :
    linesFrom cr lf line text =
      ((cutLines lf).run line (normalizeLines cr lf text)).1 ++
        lastLine ((cutLines lf).run line (normalizeLines cr lf text)).2 := by
  induction line, text using linesFrom.induct cr lf with
  | case1 line => rfl
  | case2 line symbol isEnding =>
    rw [linesFrom, if_pos isEnding, normalizeLines_cons different (by simp), if_pos isEnding,
      Mealy.run_cons, cutLines_step_lf]
    rfl
  | case3 line symbol noEnding =>
    rw [not_or] at noEnding
    rw [linesFrom, if_neg (not_or.mpr noEnding), normalizeLines_cons different (by simp),
      if_neg (not_or.mpr noEnding), Mealy.run_cons, cutLines_step_plain line noEnding.2]
    show _ = lastLine (line ++ [symbol])
    rw [lastLine, if_neg (by simp)]
  | case4 line first second rest pair ih =>
    obtain ⟨rfl, rfl⟩ := pair
    rw [linesFrom, if_pos ⟨rfl, rfl⟩, ih, normalizeLines_pair different, Mealy.run_cons,
      cutLines_step_lf]
    rfl
  | case5 line first second rest notPair isEnding ih =>
    have apart : ¬ (first = cr ∧ (second :: rest).head? = some lf) := fun both =>
      notPair ⟨both.1, Option.some.inj both.2⟩
    rw [linesFrom, if_neg notPair, if_pos isEnding, ih, normalizeLines_cons different apart,
      if_pos isEnding, Mealy.run_cons, cutLines_step_lf]
    rfl
  | case6 line first second rest notPair noEnding ih =>
    have apart : ¬ (first = cr ∧ (second :: rest).head? = some lf) := fun both =>
      notPair ⟨both.1, Option.some.inj both.2⟩
    rw [linesFrom, if_neg notPair, if_neg noEnding, ih, normalizeLines_cons different apart,
      if_neg noEnding, Mealy.run_cons, cutLines_step_plain line (not_or.mp noEnding).2]
    rfl

end Lines

/-! ### Endings that wait -/

/-- The LF of a CR that was held back. -/
def heldEnding (lf : α) (waiting : Bool) : List α := if waiting then [lf] else []

/-- Turns every line ending into LF, a CR when the symbol behind it is read. The state says
whether a CR is held back. -/
def waitingNewlines (cr lf : α) : Mealy Bool α α where
  step waiting symbol :=
    (heldEnding lf (waiting && symbol != lf) ++ (if symbol = cr then [] else [symbol]), symbol = cr)

section Waiting

variable {cr lf : α}

/-- **With the ending it holds** the machine gives what the eager one does. -/
theorem waitingNewlines_run_held (different : cr ≠ lf) (waiting : Bool) (text : List α) :
    ((waitingNewlines cr lf).run waiting text).1 ++
        heldEnding lf ((waitingNewlines cr lf).run waiting text).2 =
      heldEnding lf waiting ++ ((newlines cr lf).run waiting text).1 := by
  induction text generalizing waiting with
  | nil => exact (List.append_nil _).symm
  | cons symbol rest ih =>
    rw [Mealy.run_cons, Mealy.run_cons, List.append_assoc, ih]
    by_cases isCr : symbol = cr
    · have step : (waitingNewlines cr lf).step waiting symbol = (heldEnding lf waiting, true) := by
        simp [waitingNewlines, isCr, bne_iff_ne.mpr different]
      rw [step, isCr, newlines_step_cr]
      rfl
    · by_cases swallowed : symbol = lf ∧ waiting = true
      · obtain ⟨rfl, rfl⟩ := swallowed
        have step : (waitingNewlines cr symbol).step true symbol = ([symbol], false) := by
          simp [waitingNewlines, isCr, heldEnding]
        rw [step, newlines_step_swallow different]
        rfl
      · have step : (waitingNewlines cr lf).step waiting symbol =
            (heldEnding lf waiting ++ [symbol], false) := by
          cases waiting with
          | false => simp [waitingNewlines, isCr, heldEnding]
          | true =>
            have notLf : symbol ≠ lf := fun isLf => swallowed ⟨isLf, rfl⟩
            simp [waitingNewlines, isCr, bne_iff_ne.mpr notLf]
        rw [step, newlines_step_plain waiting isCr swallowed, List.append_assoc]
        rfl

/-- **On a whole text**, with the ending it holds, the machine replaces CRLF and then CR. -/
theorem waitingNewlines_run (different : cr ≠ lf) (text : List α) :
    ((waitingNewlines cr lf).run false text).1 ++
        heldEnding lf ((waitingNewlines cr lf).run false text).2 = normalizeLines cr lf text := by
  rw [waitingNewlines_run_held different, newlines_run different]
  rfl

/-- The state after a text says whether its last symbol is a CR. -/
theorem waitingNewlines_run_state (text : List α) (nonempty : text ≠ []) (waiting : Bool) :
    ((waitingNewlines cr lf).run waiting text).2 = decide (text.getLast? = some cr) := by
  induction text using List.reverseRecOn with
  | nil => exact absurd rfl nonempty
  | append_singleton before symbol _ =>
    rw [Mealy.run_append, List.getLast?_concat]
    simp [waitingNewlines]

/-- The CR at the end of a text is held back, and what is in front of it is normalized. -/
theorem waitingNewlines_run_text (different : cr ≠ lf) (text : List α) :
    ((waitingNewlines cr lf).run false text).1 =
      normalizeLines cr lf (if text.getLast? = some cr then text.dropLast else text) := by
  induction text using List.reverseRecOn with
  | nil => rfl
  | append_singleton before symbol _ =>
    have whole := waitingNewlines_run different (before ++ [symbol])
    have state := @waitingNewlines_run_state _ _ cr lf (before ++ [symbol]) (by simp) false
    rw [List.getLast?_concat] at state ⊢
    by_cases isCr : symbol = cr
    · rw [if_pos (congrArg some isCr), List.dropLast_concat]
      have last : normalizeLines cr lf (before ++ [cr]) = normalizeLines cr lf before ++ [lf] := by
        rw [← newlines_run different, ← newlines_run different, Mealy.run_append, Mealy.run_cons,
          newlines_step_cr]
        rfl
      rw [state, isCr, decide_eq_true rfl, last] at whole
      rw [isCr]
      exact List.append_cancel_right whole
    · have notLast : ¬ some symbol = some cr := fun same => isCr (Option.some.inj same)
      rw [if_neg notLast, ← whole, state, decide_eq_false notLast]
      exact (List.append_nil _).symm

/-- The symbol behind a CR decides whether it swallows an LF. -/
theorem waitingNewlines_run_true (different : cr ≠ lf) {text : List α} (nonempty : text ≠ []) :
    (waitingNewlines cr lf).run true text =
      (lf :: ((waitingNewlines cr lf).run false
        (if text.head? = some lf then text.tail else text)).1,
        ((waitingNewlines cr lf).run false
          (if text.head? = some lf then text.tail else text)).2) := by
  cases text with
  | nil => exact absurd rfl nonempty
  | cons symbol rest =>
    by_cases isLf : symbol = lf
    · subst isLf
      have step : (waitingNewlines cr symbol).step true symbol = ([symbol], false) := by
        simp [waitingNewlines, heldEnding, different.symm]
      simp [step]
    · have step : (waitingNewlines cr lf).step true symbol =
          (lf :: ((waitingNewlines cr lf).step false symbol).1,
            ((waitingNewlines cr lf).step false symbol).2) := by
        simp [waitingNewlines, heldEnding, isLf]
      simp [isLf, step]

end Waiting

end UniApi.Lib
