/-
**Line endings, leading marks and blank lines as machines.**

Three stages of a line-oriented stream parser, over any alphabet with a carriage return and a line
feed, and the functions on whole texts they compute:

* `leadingMark`: drops one mark at the start of the stream (`leadingMark_run`);
* `newlines`: turns CRLF, CR and LF into LF as soon as the first symbol of the ending is read, and
  swallows the LF of a CRLF (`newlines_run`: on a whole text it is replacing CRLF and then CR);
* `blankLines`: collects an event and cuts it at each LF that follows an LF of the event.

`KeepsLineEndings.blankLines_coded` moves the last stage along an encoding of the alphabet that
keeps the line endings and uses them for nothing else, such as UTF-8
(`utf8_keepsLineEndings`).
-/

import UniApi.Lib.Utf8
import Mathlib.Data.List.Induction

set_option linter.unusedSectionVars false

namespace UniApi.Lib

variable {α β : Type*} [DecidableEq α] [DecidableEq β]

/-! ### One leading mark -/

/-- Drops one `mark` at the start of the stream. The state says whether the stream is at its
start. -/
def leadingMark (mark : α) : Mealy Bool α α where
  step atStart symbol := (if atStart && symbol == mark then [] else [symbol], false)

/-- `str.removeprefix` for a prefix of one symbol. -/
def removeMark (mark : α) : List α → List α
  | [] => []
  | symbol :: rest => if symbol = mark then rest else symbol :: rest

theorem leadingMark_run_false (mark : α) (text : List α) :
    (leadingMark mark).run false text = (text, false) := by
  induction text with
  | nil => rfl
  | cons symbol rest ih =>
    have step : (leadingMark mark).step false symbol = ([symbol], false) := rfl
    rw [Mealy.run_cons, step, ih]
    rfl

theorem leadingMark_run (mark : α) (text : List α) (nonempty : text ≠ []) :
    (leadingMark mark).run true text = (removeMark mark text, false) := by
  cases text with
  | nil => exact absurd rfl nonempty
  | cons symbol rest =>
    have step : (leadingMark mark).step true symbol =
        (if symbol = mark then [] else [symbol], false) := by
      simp [leadingMark]
    rw [Mealy.run_cons, step, leadingMark_run_false, removeMark]
    split <;> rfl

/-- The text a stream stands for, from either state. -/
theorem leadingMark_text (mark : α) (text : List α) :
    ((leadingMark mark).run true text).1 = removeMark mark text := by
  cases text with
  | nil => rfl
  | cons symbol rest => rw [leadingMark_run mark _ (by simp)]

/-! ### Line endings -/

/-- `replace` of the pair CR LF by LF, left to right. -/
def replaceCrLf (cr lf : α) : List α → List α
  | [] => []
  | [symbol] => [symbol]
  | first :: second :: rest =>
    if first = cr ∧ second = lf then lf :: replaceCrLf cr lf rest
    else first :: replaceCrLf cr lf (second :: rest)

/-- `replace` of CR by LF. -/
def replaceCr (cr lf : α) (text : List α) : List α :=
  text.map fun symbol => if symbol = cr then lf else symbol

/-- A text with CRLF, CR and LF all turned into LF. -/
def normalizeLines (cr lf : α) (text : List α) : List α := replaceCr cr lf (replaceCrLf cr lf text)

/-- Turns every line ending into LF. The state says whether the last symbol was a CR, whose LF is
already out. -/
def newlines (cr lf : α) : Mealy Bool α α where
  step afterCr symbol :=
    if symbol = cr then ([lf], true)
    else if symbol = lf ∧ afterCr then ([], false)
    else ([symbol], false)

section Newlines

variable {cr lf : α}

theorem newlines_step_cr (afterCr : Bool) : (newlines cr lf).step afterCr cr = ([lf], true) := by
  simp [newlines]

theorem newlines_step_swallow (different : cr ≠ lf) :
    (newlines cr lf).step true lf = ([], false) := by
  simp [newlines, different.symm]

theorem newlines_step_plain {symbol : α} (afterCr : Bool) (notCr : symbol ≠ cr)
    (notSwallowed : ¬ (symbol = lf ∧ afterCr)) :
    (newlines cr lf).step afterCr symbol = ([symbol], false) := by
  simp only [newlines, if_neg notCr, if_neg notSwallowed]

/-- After a CR, only a following LF makes a difference: it is swallowed. -/
theorem newlines_run_true (different : cr ≠ lf) (text : List α) :
    ((newlines cr lf).run true text).1 =
        ((newlines cr lf).run false (if text.head? = some lf then text.tail else text)).1 ∧
      (text ≠ [] → ((newlines cr lf).run true text).2 =
        ((newlines cr lf).run false (if text.head? = some lf then text.tail else text)).2) := by
  cases text with
  | nil => exact ⟨rfl, fun nonempty => absurd rfl nonempty⟩
  | cons symbol rest =>
    by_cases isLf : symbol = lf
    · subst isLf
      simp [newlines_step_swallow different]
    · have same : (newlines cr lf).step true symbol = (newlines cr lf).step false symbol := by
        simp [newlines, isLf]
      simp [isLf, same]

/-- The state after a text says whether its last symbol is a CR. -/
theorem newlines_run_state (text : List α) (nonempty : text ≠ []) (afterCr : Bool) :
    ((newlines cr lf).run afterCr text).2 = decide (text.getLast? = some cr) := by
  induction text using List.reverseRecOn with
  | nil => exact absurd rfl nonempty
  | append_singleton before symbol _ =>
    rw [Mealy.run_append]
    by_cases isCr : symbol = cr
    · subst isCr
      simp [newlines_step_cr]
    · simp only [newlines, Mealy.run_cons, Mealy.run_nil, if_neg isCr]
      split <;> simp [isCr]

/-- **On a whole text the machine replaces CRLF and then CR.** -/
theorem newlines_run (different : cr ≠ lf) (text : List α) :
    ((newlines cr lf).run false text).1 = normalizeLines cr lf text := by
  unfold normalizeLines
  induction text using replaceCrLf.induct cr lf with
  | case1 => rfl
  | case2 symbol =>
    by_cases isCr : symbol = cr
    · simp [isCr, newlines_step_cr, replaceCrLf, replaceCr]
    · have step : (newlines cr lf).step false symbol = ([symbol], false) :=
        newlines_step_plain false isCr (by simp)
      simp [step, replaceCrLf, replaceCr, isCr]
  | case3 first second rest pair ih =>
    obtain ⟨rfl, rfl⟩ := pair
    rw [replaceCrLf, if_pos ⟨rfl, rfl⟩, Mealy.run_cons, newlines_step_cr, Mealy.run_cons,
      newlines_step_swallow different, ih]
    simp [replaceCr, different.symm]
  | case4 first second rest notPair ih =>
    rw [replaceCrLf, if_neg notPair, Mealy.run_cons]
    by_cases isCr : first = cr
    · have notLf : second ≠ lf := fun isLf => notPair ⟨isCr, isLf⟩
      have later := (newlines_run_true different (second :: rest)).1
      rw [isCr, newlines_step_cr, later]
      simp only [List.head?_cons, Option.some.injEq, if_neg notLf, ih]
      simp [replaceCr]
    · rw [newlines_step_plain false isCr (by simp), ih]
      simp [replaceCr, isCr]

theorem newlines_run_plain (text : List α) (plain : cr ∉ text) :
    (newlines cr lf).run false text = (text, false) := by
  induction text with
  | nil => rfl
  | cons symbol rest ih =>
    have notCr : symbol ≠ cr := fun isCr => plain (isCr ▸ List.mem_cons_self)
    have step : (newlines cr lf).step false symbol = ([symbol], false) :=
      newlines_step_plain false notCr (by simp)
    rw [Mealy.run_cons, step, ih fun member => plain (List.mem_cons_of_mem _ member)]
    rfl

end Newlines

/-! ### Blank lines -/

/-- Collects an event, and cuts it at each LF that directly follows an LF of the event. Neither of
the two LF belongs to the event emitted before them. -/
def blankLines (lf : α) : Mealy (List α) α (List α) where
  step event symbol :=
    if symbol = lf ∧ event.getLast? = some lf then ([event.dropLast], []) else ([], event ++ [symbol])

section BlankLines

variable {lf : α}

theorem blankLines_step_cut (event : List α) :
    (blankLines lf).step (event ++ [lf]) lf = ([event], []) := by
  simp [blankLines]

theorem blankLines_step_keep {event : List α} {symbol : α}
    (inside : ¬ (symbol = lf ∧ event.getLast? = some lf)) :
    (blankLines lf).step event symbol = ([], event ++ [symbol]) := by
  simp only [blankLines, if_neg inside]

theorem blankLines_run_plain (event text : List α) (plain : lf ∉ text) :
    (blankLines lf).run event text = ([], event ++ text) := by
  induction text generalizing event with
  | nil => simp
  | cons symbol rest ih =>
    have notLf : symbol ≠ lf := fun isLf => plain (isLf ▸ List.mem_cons_self)
    have step : (blankLines lf).step event symbol = ([], event ++ [symbol]) :=
      blankLines_step_keep fun cut => notLf cut.1
    have later := ih (event ++ [symbol]) fun member => plain (List.mem_cons_of_mem _ member)
    rw [Mealy.run_cons, step, later]
    simp

/-- **One more symbol at the front of the event** stays at its front: in the first event cut, or in
the event collected. -/
theorem blankLines_run_cons (symbol : α) (event text : List α) (apart : symbol ≠ lf ∨ event ≠ []) :
    (((blankLines lf).run event text).1 = [] ∧ (blankLines lf).run (symbol :: event) text =
        ([], symbol :: ((blankLines lf).run event text).2)) ∨
      ∃ first rest, ((blankLines lf).run event text).1 = first :: rest ∧
        (blankLines lf).run (symbol :: event) text =
          ((symbol :: first) :: rest, ((blankLines lf).run event text).2) := by
  induction text generalizing event with
  | nil => exact Or.inl ⟨rfl, rfl⟩
  | cons next rest ih =>
    have last : (symbol :: event).getLast? = some lf ↔ event.getLast? = some lf := by
      cases event with
      | nil =>
        have different : symbol ≠ lf := apart.resolve_right fun nonempty => nonempty rfl
        simp [different]
      | cons head tail => simp
    by_cases cut : next = lf ∧ event.getLast? = some lf
    · obtain ⟨before, rfl⟩ := List.getLast?_eq_some_iff.mp cut.2
      rw [cut.1, ← List.cons_append, Mealy.run_cons, Mealy.run_cons, blankLines_step_cut,
        blankLines_step_cut]
      exact Or.inr ⟨before, _, rfl, rfl⟩
    · have longer : ¬ (next = lf ∧ (symbol :: event).getLast? = some lf) :=
        fun cut' => cut ⟨cut'.1, last.mp cut'.2⟩
      rw [Mealy.run_cons, Mealy.run_cons, blankLines_step_keep cut, blankLines_step_keep longer]
      exact ih (event ++ [next]) (Or.inr (by simp))

/-- **An event that starts with an LF too many** never catches up: where the events cut agree, the
LF is still collected. The second half says the same one empty event later. -/
theorem blankLines_run_lf (text : List α) :
    (((blankLines lf).run [] text).1 = ((blankLines lf).run [lf] text).1 →
        ((blankLines lf).run [lf] text).2 = lf :: ((blankLines lf).run [] text).2) ∧
      (((blankLines lf).run [lf] text).1 = [] :: ((blankLines lf).run [] text).1 →
        ((blankLines lf).run [] text).2 = lf :: ((blankLines lf).run [lf] text).2) := by
  induction text with
  | nil => simp
  | cons next rest ih =>
    have fresh : (blankLines lf).step [] next = ([], [next]) := blankLines_step_keep (by simp)
    by_cases isLf : next = lf
    · subst isLf
      have cut : (blankLines next).step [next] next = ([[]], []) := blankLines_step_cut []
      simp only [Mealy.run_cons, fresh, cut, List.nil_append, List.cons_append, List.cons.injEq,
        true_and]
      exact ⟨fun same => ih.2 same, fun same => ih.1 same⟩
    · have keep : (blankLines lf).step [lf] next = ([], [lf, next]) :=
        blankLines_step_keep fun cut => isLf cut.1
      simp only [Mealy.run_cons, fresh, keep, List.nil_append]
      rcases blankLines_run_cons lf [next] rest (Or.inr (List.cons_ne_nil _ _)) with
        ⟨none, run⟩ | ⟨first, others, some, run⟩
      · rw [run, none]
        exact ⟨fun _ => rfl, fun same => nomatch same⟩
      · rw [run, some]
        refine ⟨fun same => ?_, fun same => ?_⟩
        · have heads := (List.cons.inj same).1
          exact absurd (congrArg List.length heads) (by simp)
        · cases (List.cons.inj same).1

theorem blankLines_run_collects {event text : List α} (none : ((blankLines lf).run event text).1 = []) :
    ((blankLines lf).run event text).2 = event ++ text := by
  induction text generalizing event with
  | nil => simp
  | cons symbol rest ih =>
    rw [Mealy.run_cons] at none ⊢
    by_cases cut : symbol = lf ∧ event.getLast? = some lf
    · simp [blankLines, cut] at none
    · rw [blankLines_step_keep cut] at none ⊢
      rw [ih none, List.append_assoc]
      rfl

/-- **Nothing is cut exactly where no two LF follow each other.** -/
theorem blankLines_run_eq_nil (text : List α) :
    ((blankLines lf).run [] text).1 = [] ↔ ¬ [lf, lf] <:+: text := by
  induction text using List.reverseRecOn with
  | nil => simp
  | append_singleton before symbol ih =>
    have pair : [lf, lf] <:+ before ++ [symbol] ↔ symbol = lf ∧ before.getLast? = some lf := by
      rw [show [lf, lf] = [lf] ++ [lf] from rfl, ← List.reverse_prefix]
      cases before using List.reverseRecOn with
      | nil => simp
      | append_singleton earlier last => simp [eq_comm, and_comm]
    rw [List.infix_concat_iff, not_or, ← ih, pair, Mealy.run_append, List.append_eq_nil_iff,
      and_comm]
    refine and_congr_left fun none => ?_
    rw [Mealy.run_cons, blankLines_run_collects none]
    by_cases cut : symbol = lf ∧ before.getLast? = some lf
    · simp [blankLines, cut]
    · simp [blankLines, cut]

/-- An LF more at the front of a nonempty event stays unseen exactly while nothing is cut. -/
theorem blankLines_run_lf_cons {event : List α} (nonempty : event ≠ []) (text : List α) :
    ((blankLines lf).run (lf :: event) text).1 = ((blankLines lf).run event text).1 ↔
      ((blankLines lf).run event text).1 = [] := by
  rcases blankLines_run_cons lf event text (Or.inr nonempty) with
    ⟨none, run⟩ | ⟨first, rest, some, run⟩
  · rw [run, none]
  · rw [run, some]
    refine ⟨fun same => ?_, fun none => nomatch none⟩
    exact absurd (congrArg List.length (List.cons.inj same).1) (by simp)

/-- A text that starts with pairs of LF, then neither with an LF nor with two anywhere. -/
def PairedBlankLines (lf : α) (text : List α) : Prop :=
  ∃ (pairs : Nat) (later : List α), text = List.replicate (2 * pairs) lf ++ later ∧
    later.head? ≠ some lf ∧ ¬ [lf, lf] <:+: later

theorem PairedBlankLines.pair {text : List α} :
    PairedBlankLines lf (lf :: lf :: text) ↔ PairedBlankLines lf text := by
  constructor
  · rintro ⟨pairs, later, same, head, plain⟩
    cases pairs with
    | zero =>
      rw [Nat.mul_zero, List.replicate_zero, List.nil_append] at same
      exact absurd (by rw [← same]; rfl) head
    | succ pairs =>
      rw [Nat.mul_succ, List.replicate_succ, List.replicate_succ] at same
      exact ⟨pairs, later, (List.cons.inj (List.cons.inj same).2).2, head, plain⟩
  · rintro ⟨pairs, later, rfl, head, plain⟩
    exact ⟨pairs + 1, later, by rw [Nat.mul_succ, List.replicate_succ, List.replicate_succ]; rfl,
      head, plain⟩

theorem PairedBlankLines.of_head {text : List α} (head : text.head? ≠ some lf) :
    PairedBlankLines lf text ↔ ¬ [lf, lf] <:+: text := by
  constructor
  · rintro ⟨pairs, later, rfl, -, plain⟩
    cases pairs with
    | zero => simpa using plain
    | succ pairs => exact absurd rfl head
  · exact fun plain => ⟨0, text, by simp, head, plain⟩

theorem not_pairedBlankLines {text : List α} (head : text.head? ≠ some lf) :
    ¬ PairedBlankLines lf (lf :: text) := by
  rintro ⟨pairs, later, same, notLf, -⟩
  cases pairs with
  | zero =>
    rw [Nat.mul_zero, List.replicate_zero, List.nil_append] at same
    exact notLf (by rw [← same]; rfl)
  | succ pairs =>
    rw [Nat.mul_succ, List.replicate_succ, List.replicate_succ] at same
    exact head (by rw [(List.cons.inj same).2]; rfl)

/-- **An LF too many at the front stays unseen** exactly over pairs of LF and then a text without
blank lines. -/
theorem blankLines_run_lf_same : (text : List α) →
    (((blankLines lf).run [lf] text).1 = ((blankLines lf).run [] text).1 ↔
      PairedBlankLines lf text)
  | [] => by
    rw [PairedBlankLines.of_head (by simp)]
    simp
  | next :: rest => by
    have fresh : (blankLines lf).step [] next = ([], [next]) := blankLines_step_keep (by simp)
    by_cases isLf : next = lf
    · have cut : (blankLines lf).step [lf] lf = ([[]], []) := blankLines_step_cut []
      rw [isLf] at fresh ⊢
      rw [Mealy.run_cons, Mealy.run_cons, fresh, cut]
      cases rest with
      | nil => simpa using not_pairedBlankLines (show ([] : List α).head? ≠ some lf by simp)
      | cons second later =>
        have again : (blankLines lf).step [] second = ([], [second]) :=
          blankLines_step_keep (by simp)
        by_cases isPair : second = lf
        · rw [isPair] at again ⊢
          rw [PairedBlankLines.pair, ← blankLines_run_lf_same later, Mealy.run_cons, Mealy.run_cons,
            again, cut]
          simp
        · have keep : (blankLines lf).step [lf] second = ([], [lf, second]) :=
            blankLines_step_keep fun cut => isPair cut.1
          have unpaired := not_pairedBlankLines
            (show (second :: later).head? ≠ some lf by simpa using isPair)
          rw [iff_false_right unpaired, Mealy.run_cons, Mealy.run_cons, again, keep]
          -- an event that starts with the LF is no empty event
          have apart : lf ≠ lf ∨ [second] ≠ [] := Or.inr (List.cons_ne_nil _ _)
          rcases blankLines_run_cons lf [second] later apart with
            ⟨none, run⟩ | ⟨first, others, some, run⟩
          · simp [run, none]
          · simp [run, some]
    · have keep : (blankLines lf).step [lf] next = ([], [lf, next]) :=
        blankLines_step_keep fun cut => isLf cut.1
      have whole : ((blankLines lf).run [] (next :: rest)).1 = ((blankLines lf).run [next] rest).1 := by
        rw [Mealy.run_cons, fresh]
        rfl
      rw [PairedBlankLines.of_head (by simpa using isLf), ← blankLines_run_eq_nil, whole,
        ← blankLines_run_lf_cons (List.cons_ne_nil _ _), Mealy.run_cons, keep]
      rfl

end BlankLines

/-! ### The stages along an encoding -/

/-- An encoding of symbols by strings that keeps CR and LF and uses them for nothing else. -/
structure KeepsLineEndings (cr lf : α) (cr' lf' : β) (code : α → List β) : Prop where
  cr_code : code cr = [cr']
  lf_code : code lf = [lf']
  different : cr' ≠ lf'
  nonempty : ∀ symbol, code symbol ≠ []
  no_cr : ∀ symbol, symbol ≠ cr → cr' ∉ code symbol
  no_lf : ∀ symbol, symbol ≠ lf → lf' ∉ code symbol

namespace KeepsLineEndings

variable {cr lf : α} {cr' lf' : β} {code : α → List β}

theorem getLast?_eq_lf (keeps : KeepsLineEndings cr lf cr' lf' code) (text : List α) :
    (text.flatMap code).getLast? = some lf' ↔ text.getLast? = some lf := by
  induction text using List.reverseRecOn with
  | nil => simp
  | append_singleton before symbol _ =>
    by_cases isLf : symbol = lf
    · simp [isLf, keeps.lf_code]
    · have absent : ¬ (code symbol).getLast? = some lf' := fun last =>
        keeps.no_lf symbol isLf (List.mem_of_getLast? last)
      simp [List.flatMap_append, List.getLast?_append_of_ne_nil _ (keeps.nonempty symbol), absent,
        isLf]

theorem dropLast_flatMap (keeps : KeepsLineEndings cr lf cr' lf' code) {text : List α}
    (last : text.getLast? = some lf) :
    (text.flatMap code).dropLast = text.dropLast.flatMap code := by
  obtain ⟨before, rfl⟩ := List.getLast?_eq_some_iff.mp last
  simp [List.flatMap_append, keeps.lf_code]

/-- **Cutting at blank lines commutes with the encoding.** -/
theorem blankLines_coded (keeps : KeepsLineEndings cr lf cr' lf' code) (event text : List α) :
    (blankLines lf').run (event.flatMap code) (text.flatMap code) =
      (((blankLines lf).run event text).1.map (List.flatMap code),
        ((blankLines lf).run event text).2.flatMap code) := by
  induction text generalizing event with
  | nil => rfl
  | cons symbol rest ih =>
    rw [List.flatMap_cons, Mealy.run_append, Mealy.run_cons]
    by_cases cut : symbol = lf ∧ event.getLast? = some lf
    · obtain ⟨rfl, last⟩ := cut
      have codedLast := (keeps.getLast?_eq_lf event).mpr last
      have step : (blankLines symbol).step event symbol = ([event.dropLast], []) := by
        simp [blankLines, last]
      have codedStep : (blankLines lf').run (event.flatMap code) (code symbol) =
          ([event.dropLast.flatMap code], []) := by
        simp [keeps.lf_code, blankLines, codedLast, keeps.dropLast_flatMap last]
      have later := ih []
      rw [List.flatMap_nil] at later
      simp [step, codedStep, later]
    · have step := blankLines_step_keep cut
      have codedStep : (blankLines lf').run (event.flatMap code) (code symbol) =
          ([], (event ++ [symbol]).flatMap code) := by
        by_cases isLf : symbol = lf
        · have notLast : ¬ (event.flatMap code).getLast? = some lf' := fun last =>
            cut ⟨isLf, (keeps.getLast?_eq_lf event).mp last⟩
          simp [isLf, keeps.lf_code, blankLines, notLast, List.flatMap_append]
        · rw [blankLines_run_plain _ _ (keeps.no_lf symbol isLf)]
          simp [List.flatMap_append]
      rw [codedStep, step, ih]
      simp

end KeepsLineEndings

/-- An ASCII byte occurs in the encoding of one character only: its own. -/
theorem mem_encodeChar_ascii {letter : Char} {byte : UInt8} (ascii : byte.toNat < 0x80) :
    byte ∈ String.utf8EncodeChar letter ↔ letter.toNat = byte.toNat := by
  have bounds := Utf8.char_bounds letter
  have value : letter.val.toNat = letter.toNat := rfl
  have small : ∀ n, n < 256 → (byte = UInt8.ofNat n ↔ byte.toNat = n) := fun n bound => by
    rw [← UInt8.toNat_inj, Utf8.toNat_ofNat_small bound]
  unfold String.utf8EncodeChar
  simp only [value]
  generalize letter.toNat = v at bounds
  split
  · rw [List.mem_singleton, small v (by omega)]
    omega
  split
  · simp only [List.mem_cons, List.not_mem_nil, or_false]
    rw [small _ (by omega), small _ (by omega)]
    omega
  split
  · simp only [List.mem_cons, List.not_mem_nil, or_false]
    rw [small _ (by omega), small _ (by omega), small _ (by omega)]
    omega
  · simp only [List.mem_cons, List.not_mem_nil, or_false]
    rw [small _ (by omega), small _ (by omega), small _ (by omega), small _ (by omega)]
    omega

theorem char_eq_of_toNat {letter other : Char} (same : letter.toNat = other.toNat) :
    letter = other :=
  Char.ext (UInt32.toNat_inj.mp same)

/-- **UTF-8 keeps the line endings.** -/
theorem utf8_keepsLineEndings :
    KeepsLineEndings '\r' '\n' (13 : UInt8) 10 String.utf8EncodeChar where
  cr_code := by decide
  lf_code := by decide
  different := by decide
  nonempty letter empty := by
    have length := String.length_utf8EncodeChar letter
    rw [empty] at length
    exact absurd length (Nat.ne_of_lt letter.utf8Size_pos)
  no_cr letter different member :=
    different (char_eq_of_toNat ((mem_encodeChar_ascii (by decide)).mp member))
  no_lf letter different member :=
    different (char_eq_of_toNat ((mem_encodeChar_ascii (by decide)).mp member))

theorem points_keepsLineEndings :
    KeepsLineEndings '\r' '\n' (13 : CodePoint) 10 fun letter => [letter.toNat] where
  cr_code := rfl
  lf_code := rfl
  different := by decide
  nonempty _ := List.cons_ne_nil _ _
  no_cr _ different member :=
    different (char_eq_of_toNat (List.mem_singleton.mp member).symm)
  no_lf _ different member :=
    different (char_eq_of_toNat (List.mem_singleton.mp member).symm)

/-- **Cutting the bytes of a text cuts its code points.** -/
theorem blankLines_utf8 (event text : List Char) :
    ∃ (cuts : List (List Char)) (rest : List Char),
      (blankLines (10 : UInt8)).run (Utf8.encode event) (Utf8.encode text) =
          (cuts.map Utf8.encode, Utf8.encode rest) ∧
      (blankLines (10 : CodePoint)).run (event.map Char.toNat) (text.map Char.toNat) =
          (cuts.map (List.map Char.toNat), rest.map Char.toNat) := by
  refine ⟨((blankLines '\n').run event text).1, ((blankLines '\n').run event text).2,
    utf8_keepsLineEndings.blankLines_coded event text, ?_⟩
  have coded := points_keepsLineEndings.blankLines_coded event text
  have single : List.flatMap (fun letter : Char => [letter.toNat]) = List.map Char.toNat :=
    funext fun letters => List.map_eq_flatMap.symm
  simpa only [single] using coded

end UniApi.Lib
