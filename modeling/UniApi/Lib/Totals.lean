/-
**Totals over lists of owners.**

What a list of owners holds together is the total of a weight. Replacing, adding or removing one
owner moves the total by the weights involved, so that an account over many owners is kept by an
argument about one. Owners that are numbered are counted the same way.
-/

import Mathlib.Algebra.BigOperators.Group.List.Basic
import Mathlib.Algebra.Order.Ring.Int

namespace UniApi.Lib

variable {α : Type*}

/-- The total weight of a list. -/
def total (weigh : α → Int) (list : List α) : Int := (list.map weigh).sum

variable (weigh : α → Int)

@[simp] theorem total_nil : total weigh [] = 0 := rfl

@[simp] theorem total_cons (head : α) (tail : List α) :
    total weigh (head :: tail) = weigh head + total weigh tail := by
  simp [total]

@[simp] theorem total_append (first second : List α) :
    total weigh (first ++ second) = total weigh first + total weigh second := by
  simp [total]

theorem total_nonneg {list : List α} (each : ∀ owner ∈ list, 0 ≤ weigh owner) :
    0 ≤ total weigh list := by
  induction list with
  | nil => exact Int.le_refl 0
  | cons head tail ih =>
    have here := each head List.mem_cons_self
    have later := ih fun owner member => each owner (List.mem_cons_of_mem _ member)
    rw [total_cons]
    omega

/-- **Replacing an owner** moves the total by the change of its weight. -/
theorem total_set {list : List α} {index : Nat} {owner : α} (found : list[index]? = some owner)
    (other : α) : total weigh (list.set index other) = total weigh list - weigh owner + weigh other := by
  induction list generalizing index with
  | nil => cases found
  | cons head tail ih =>
    cases index with
    | zero =>
      cases found
      simp
      omega
    | succ index =>
      rw [List.set_cons_succ, total_cons, total_cons, ih (by simpa using found)]
      omega

/-- **Removing an owner** takes its weight off. -/
theorem total_eraseIdx {list : List α} {index : Nat} {owner : α}
    (found : list[index]? = some owner) :
    total weigh (list.eraseIdx index) = total weigh list - weigh owner := by
  induction list generalizing index with
  | nil => cases found
  | cons head tail ih =>
    cases index with
    | zero =>
      cases found
      simp
    | succ index =>
      rw [List.eraseIdx_cons_succ, total_cons, total_cons, ih (by simpa using found)]
      omega

/-- What holds of every owner and of the new one holds after replacing. -/
theorem forall_mem_set {holds : α → Prop} {list : List α} {index : Nat} {other : α}
    (each : ∀ owner ∈ list, holds owner) (new : holds other) :
    ∀ owner ∈ list.set index other, holds owner := by
  intro owner member
  rcases List.mem_or_eq_of_mem_set member with old | rfl
  · exact each owner old
  · exact new

/-! ### Counting numbered owners -/

/-- How many of the first owners a property holds of. -/
def countUpTo (holds : Nat → Prop) [DecidablePred holds] (bound : Nat) : Nat :=
  (List.range bound).countP fun id => decide (holds id)

section Count

variable {holds other : Nat → Prop} [DecidablePred holds] [DecidablePred other] {bound : Nat}

theorem countUpTo_succ : countUpTo holds (bound + 1) =
    countUpTo holds bound + if holds bound then 1 else 0 := by
  unfold countUpTo
  rw [List.range_succ, List.countP_append, List.countP_singleton]
  simp

theorem countUpTo_congr (same : ∀ id, id < bound → (holds id ↔ other id)) :
    countUpTo holds bound = countUpTo other bound := by
  unfold countUpTo
  refine List.countP_congr fun id inside => ?_
  simp [same id (List.mem_range.mp inside)]

variable (holds other) in
/-- **One owner changed**: the count moves by what holds of it. -/
theorem countUpTo_update {id : Nat} (inside : id < bound)
    (same : ∀ key, key ≠ id → (holds key ↔ other key)) :
    countUpTo holds bound + (if other id then 1 else 0) =
      countUpTo other bound + if holds id then 1 else 0 := by
  induction bound with
  | zero => exact absurd inside (Nat.not_lt_zero id)
  | succ bound ih =>
    rw [countUpTo_succ, countUpTo_succ]
    by_cases last : id = bound
    · subst last
      rw [countUpTo_congr fun key below => same key (Nat.ne_of_lt below)]
      omega
    · have before := ih (by omega)
      have here := same bound (Ne.symm last)
      simp only [here]
      omega

theorem countUpTo_pos {id : Nat} (inside : id < bound) (here : holds id) : 0 < countUpTo holds bound := by
  unfold countUpTo
  rw [List.countP_pos_iff]
  exact ⟨id, List.mem_range.mpr inside, by simpa using here⟩

theorem countUpTo_eq_zero (none : ∀ id, id < bound → ¬ holds id) : countUpTo holds bound = 0 := by
  unfold countUpTo
  rw [List.countP_eq_zero]
  intro id inside
  simp [none id (List.mem_range.mp inside)]

end Count

end UniApi.Lib
