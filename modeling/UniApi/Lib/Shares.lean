/-
**Shares of a rotation.**

Each of finitely many names has a positive weight. A rotation that always picks a name whose number of
picks is smallest in relation to its weight gives every name its exact share.

* `LeastFirst.count_le`: as long as there are no more picks than the weights allow together, no name is
  picked more often than its weight;
* `LeastFirst.count_eq`: after as many picks as all weights together, every name was picked exactly as
  often as its weight;
* `LeastFirst.count_le_share`: at no time is a name a whole pick ahead of its share.
-/

import Mathlib.Algebra.BigOperators.Group.List.Basic
import Mathlib.Algebra.BigOperators.Ring.List
import Mathlib.Algebra.Order.BigOperators.Group.List
import Mathlib.Algebra.Order.Ring.Nat
import Mathlib.Data.List.Nodup

namespace UniApi.Lib

variable {α : Type} [DecidableEq α]

/-- The sum of all weights. -/
def totalWeight (weights : α → ℕ) (names : List α) : ℕ := (names.map weights).sum

/-- **Picks of the least served.** Every pick is of a name that was picked least often before, in
relation to its weight. -/
inductive LeastFirst (weights : α → ℕ) (names : List α) : List α → Prop
  | nil : LeastFirst weights names []
  | pick {picks : List α} {name : α} (before : LeastFirst weights names picks) (known : name ∈ names)
      (least : ∀ other ∈ names, picks.count name * weights other ≤ picks.count other * weights name) :
      LeastFirst weights names (picks ++ [name])

variable {weights : α → ℕ} {names picks : List α}

theorem sum_indicator_eq_count (name : α) (names : List α) :
    (names.map fun other => if name = other then 1 else 0).sum = names.count name := by
  induction names with
  | nil => rfl
  | cons head rest ih =>
    rw [List.map_cons, List.sum_cons, ih, List.count_cons, Nat.add_comm]
    simp only [beq_iff_eq, @eq_comm _ head name]

theorem sum_indicator (distinct : names.Nodup) {name : α} (known : name ∈ names) :
    (names.map fun other => if name = other then 1 else 0).sum = 1 := by
  rw [sum_indicator_eq_count, List.count_eq_one_of_mem distinct known]

theorem sum_count (distinct : names.Nodup) (known : ∀ name ∈ picks, name ∈ names) :
    (names.map fun name => picks.count name).sum = picks.length := by
  induction picks with
  | nil => simp
  | cons name rest ih =>
    have split : (fun other => (name :: rest).count other) =
        fun other => rest.count other + if name = other then 1 else 0 := by
      funext other
      simp only [List.count_cons, beq_iff_eq]
    rw [split, List.sum_map_add, ih fun other there => known other (List.mem_cons_of_mem _ there),
      sum_indicator distinct (known name List.mem_cons_self), List.length_cons]

namespace LeastFirst

theorem known (least : LeastFirst weights names picks) : ∀ name ∈ picks, name ∈ names := by
  induction least with
  | nil => exact nofun
  | pick before isKnown _ ih =>
    intro other there
    rcases List.mem_append.mp there with earlier | last
    · exact ih other earlier
    · rw [List.mem_singleton.mp last]
      exact isKnown

/-- **No name gets more than its weight** before every name has got its own. -/
theorem count_le (least : LeastFirst weights names picks) (distinct : names.Nodup)
    (positive : ∀ name ∈ names, 0 < weights name) (few : picks.length ≤ totalWeight weights names) :
    ∀ name ∈ names, picks.count name ≤ weights name := by
  induction least with
  | nil => exact fun name _ => Nat.zero_le _
  | @pick picks name before isKnown isLeast ih =>
    rw [List.length_append, List.length_singleton] at few
    have shares := ih (Nat.le_of_succ_le few)
    intro other there
    rw [List.count_append, List.count_singleton]
    by_cases same : name = other
    · subst same
      -- if the name picked had its share, so would every other name
      have unfinished : picks.count name < weights name := by
        by_contra full
        have every : ∀ each ∈ names, weights each ≤ picks.count each := by
          intro each isEach
          refine Nat.le_of_mul_le_mul_right ?_ (positive name isKnown)
          calc weights each * weights name ≤ weights each * picks.count name :=
                Nat.mul_le_mul_left _ (Nat.le_of_not_lt full)
            _ = picks.count name * weights each := Nat.mul_comm _ _
            _ ≤ picks.count each * weights name := isLeast each isEach
        have all : totalWeight weights names ≤ picks.length := by
          rw [← sum_count distinct before.known]
          exact List.sum_le_sum every
        omega
      rw [beq_self_eq_true, if_pos rfl]
      exact unfinished
    · rw [beq_eq_false_iff_ne.mpr same, if_neg Bool.false_ne_true, Nat.add_zero]
      exact shares other there

/-- **Exact shares**: after as many picks as all weights together. -/
theorem count_eq (least : LeastFirst weights names picks) (distinct : names.Nodup)
    (positive : ∀ name ∈ names, 0 < weights name) (whole : picks.length = totalWeight weights names) :
    ∀ name ∈ names, picks.count name = weights name := by
  have shares := least.count_le distinct positive whole.le
  have sums : (names.map fun name => picks.count name).sum = (names.map weights).sum :=
    (sum_count distinct least.known).trans whole
  intro name isName
  by_contra short
  have less : picks.count name < weights name := lt_of_le_of_ne (shares name isName) short
  exact absurd sums (List.sum_lt_sum _ _ shares ⟨name, isName, less⟩).ne

/-- What was picked first is a rotation of the least served as well. -/
theorem of_prefix (least : LeastFirst weights names picks) {front : List α} (isPrefix : front <+: picks) :
    LeastFirst weights names front := by
  induction least with
  | nil =>
    rw [List.prefix_nil.mp isPrefix]
    exact .nil
  | pick before isKnown isLeast ih =>
    rcases List.prefix_concat_iff.mp isPrefix with rfl | earlier
    · exact before.pick isKnown isLeast
    · exact ih earlier

/-- **No name is a whole pick ahead of its share.** -/
theorem count_le_share (least : LeastFirst weights names picks) (distinct : names.Nodup) {name : α}
    (isName : name ∈ names) : totalWeight weights names * picks.count name + weights name ≤
      picks.length * weights name + totalWeight weights names := by
  induction least with
  | nil =>
    rw [List.count_nil, List.length_nil, Nat.mul_zero, Nat.zero_mul, Nat.zero_add, Nat.zero_add]
    exact List.single_le_sum (fun _ _ => Nat.zero_le _) _ (List.mem_map_of_mem isName)
  | @pick picks picked before isKnown isLeast ih =>
    rw [List.length_append, List.length_singleton, List.count_append, List.count_singleton]
    by_cases same : picked = name
    · subst same
      -- the name that is picked has at most its share of the picks before
      have sums := List.sum_le_sum isLeast
      rw [List.sum_map_mul_left, List.sum_map_mul_right, sum_count distinct before.known,
        Nat.mul_comm] at sums
      rw [beq_self_eq_true, if_pos rfl, Nat.mul_succ, Nat.succ_mul]
      exact Nat.add_le_add_right (Nat.add_le_add_right sums _) _ |>.trans (by omega)
    · rw [beq_eq_false_iff_ne.mpr same, if_neg Bool.false_ne_true, Nat.add_zero, Nat.succ_mul]
      exact ih.trans (by omega)

end LeastFirst

end UniApi.Lib
