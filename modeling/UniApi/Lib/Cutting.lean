/-
**Cutting a stream at its delimiters.**

A `Finder` locates the first delimiter of an input. Cutting at it again and again gives the blocks of
the input and the rest that holds no delimiter. A finder is stable: what it has found, it finds again
when more input follows. That is all the cuts of the input need in order not to show:

* `cut_join`: the blocks and the rest are the input;
* `cut_append`: cutting an input and then the rest with what follows is cutting both at once.
-/

import Mathlib.Data.List.Basic
import Mathlib.Tactic.Common

namespace UniApi.Lib

variable {α : Type*}

/-- **A finder of delimiters**: where the first one starts, and how long it is. -/
structure Finder (α : Type*) where
  find : List α → Option (Nat × Nat)
  bounded : ∀ {input start length}, find input = some (start, length) →
    0 < length ∧ start + length ≤ input.length
  stable : ∀ {input found} (more : List α), find input = some found → find (input ++ more) = some found

/-- A block: what stands before a delimiter, and the delimiter. -/
structure Block (α : Type*) where
  body : List α
  delimiter : List α
  deriving DecidableEq

/-- The block as it stands in the input. -/
def Block.wire (block : Block α) : List α := block.body ++ block.delimiter

namespace Finder

variable (finder : Finder α)

/-- The block that ends at a delimiter. -/
def block (input : List α) (start length : Nat) : Block α :=
  ⟨input.take start, (input.drop start).take length⟩

/-- At most `fuel` cuts. -/
def cutFuel : Nat → List α → List (Block α) × List α
  | 0, input => ([], input)
  | fuel + 1, input =>
    match finder.find input with
    | none => ([], input)
    | some (start, length) =>
      let later := cutFuel fuel (input.drop (start + length))
      (block input start length :: later.1, later.2)

/-- **The blocks of an input, and the rest.** -/
def cut (input : List α) : List (Block α) × List α := finder.cutFuel input.length input

theorem cutFuel_enough {input : List α} {fuel : Nat} (enough : input.length ≤ fuel) :
    finder.cutFuel fuel input = finder.cut input := by
  unfold cut
  induction fuel using Nat.strongRecOn generalizing input with
  | ind fuel ih =>
    cases fuel with
    | zero => rw [Nat.le_zero.mp enough]
    | succ fuel =>
      cases size : input.length with
      | zero =>
        have empty : input = [] := List.eq_nil_of_length_eq_zero size
        subst empty
        have nothing : finder.find ([] : List α) = none := by
          cases found : finder.find ([] : List α) with
          | none => rfl
          | some place =>
            have bounds := finder.bounded (show finder.find _ = some (place.1, place.2) from found)
            simp only [List.length_nil] at bounds
            omega
        simp [cutFuel, nothing]
      | succ size' =>
        simp only [cutFuel]
        cases found : finder.find input with
        | none => rfl
        | some place =>
          obtain ⟨start, length⟩ := place
          have bounds := finder.bounded found
          have shorter : (input.drop (start + length)).length < input.length := by
            rw [List.length_drop]
            omega
          have first := @ih fuel (Nat.lt_succ_self _) (input.drop (start + length)) (by omega)
          have second := @ih size' (by omega) (input.drop (start + length)) (by omega)
          simp only [first, second]

theorem cut_of_none {input : List α} (nothing : finder.find input = none) :
    finder.cut input = ([], input) := by
  rw [← finder.cutFuel_enough (Nat.le_succ input.length)]
  simp [cutFuel, nothing]

theorem cut_of_some {input : List α} {start length : Nat}
    (found : finder.find input = some (start, length)) :
    finder.cut input = (block input start length :: (finder.cut (input.drop (start + length))).1,
      (finder.cut (input.drop (start + length))).2) := by
  have bounds := finder.bounded found
  rw [← finder.cutFuel_enough (Nat.le_succ input.length)]
  simp only [cutFuel, found]
  rw [finder.cutFuel_enough (by rw [List.length_drop]; omega)]

/-- **Induction along the cuts.** -/
theorem cut_induct {motive : List α → Prop} (rest : ∀ input, finder.find input = none → motive input)
    (block : ∀ input start length, finder.find input = some (start, length) →
      motive (input.drop (start + length)) → motive input) (input : List α) : motive input := by
  induction size : input.length using Nat.strongRecOn generalizing input with
  | ind size ih =>
    cases found : finder.find input with
    | none => exact rest input found
    | some place =>
      have bounds := finder.bounded (show finder.find _ = some (place.1, place.2) from found)
      refine block input place.1 place.2 found (ih _ ?_ _ rfl)
      rw [List.length_drop]
      omega

theorem block_wire (input : List α) (start length : Nat) :
    (block input start length).wire ++ input.drop (start + length) = input := by
  have tail : input.drop (start + length) = (input.drop start).drop length := List.drop_drop.symm
  simp only [Block.wire, block, tail, List.append_assoc, List.take_append_drop]

/-- **Nothing is lost**: the blocks and the rest are the input. -/
theorem cut_join (input : List α) :
    (finder.cut input).1.flatMap Block.wire ++ (finder.cut input).2 = input := by
  induction input using finder.cut_induct with
  | rest input nothing => simp [finder.cut_of_none nothing]
  | block input start length found ih =>
    rw [finder.cut_of_some found]
    simp only [List.flatMap_cons, List.append_assoc, ih]
    exact block_wire input start length

theorem find_cut (input : List α) : finder.find (finder.cut input).2 = none := by
  induction input using finder.cut_induct with
  | rest input nothing => rw [finder.cut_of_none nothing]; exact nothing
  | block input start length found ih => rw [finder.cut_of_some found]; exact ih

/-- What holds of the block at every delimiter holds of every block. -/
theorem cut_blocks {holds : Block α → Prop}
    (each : ∀ input start length, finder.find input = some (start, length) →
      holds (block input start length)) (input : List α) :
    ∀ block ∈ (finder.cut input).1, holds block := by
  induction input using finder.cut_induct with
  | rest input nothing => simp [finder.cut_of_none nothing]
  | block input start length found ih =>
    rw [finder.cut_of_some found]
    simp only [List.mem_cons, forall_eq_or_imp]
    exact ⟨each input start length found, ih⟩

/-- **Cuts of the input do not show**: what follows is cut after the rest. -/
theorem cut_append (input more : List α) :
    finder.cut (input ++ more) =
      ((finder.cut input).1 ++ (finder.cut ((finder.cut input).2 ++ more)).1,
        (finder.cut ((finder.cut input).2 ++ more)).2) := by
  induction input using finder.cut_induct with
  | rest input nothing => simp [finder.cut_of_none nothing]
  | block input start length found ih =>
    have bounds := finder.bounded found
    have after : (input ++ more).drop (start + length) = input.drop (start + length) ++ more :=
      List.drop_append_of_le_length bounds.2
    have same : block (input ++ more) start length = block input start length := by
      unfold block
      rw [List.take_append_of_le_length (by omega), List.drop_append_of_le_length (by omega),
        List.take_append_of_le_length (by rw [List.length_drop]; omega)]
    rw [finder.cut_of_some (finder.stable more found), after, ih, same, finder.cut_of_some found]
    rfl

end Finder

end UniApi.Lib
