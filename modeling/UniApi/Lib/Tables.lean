/-
**Tables: finite maps with a weight.**

A table is an association list without repeated keys. Its size and its weight, the sum of a weight of
the values, follow every change of one row: an account over a table is kept by an argument about one row.

* `weight_insert`, `weight_erase`, `weight_replace`: a change of one row moves the weight by that row;
* `lookup_of_lookup_erase`, `lookup_of_lookup_replace`: the rows after a change.
-/

import Mathlib.Algebra.Order.Ring.Int
import Mathlib.Algebra.BigOperators.Group.List.Basic
import Mathlib.Algebra.Order.BigOperators.Group.List
import Mathlib.Algebra.Order.Ring.Nat
import Mathlib.Data.List.AList

namespace UniApi.Lib

/-- A finite map. -/
abbrev Table (κ ν : Type) := AList fun _ : κ => ν

namespace Table

variable {κ ν : Type}

/-- The number of rows. -/
def size (table : Table κ ν) : Nat := table.entries.length

/-- The values in the order of the rows. -/
def values (table : Table κ ν) : List ν := table.entries.map Sigma.snd

/-- The sum of the weights of the values. -/
def weight (weigh : ν → Nat) (table : Table κ ν) : Nat := ((values table).map weigh).sum

@[simp] theorem size_empty : size (∅ : Table κ ν) = 0 := rfl

@[simp] theorem weight_empty (weigh : ν → Nat) : weight weigh (∅ : Table κ ν) = 0 := rfl

variable [DecidableEq κ]

/-! ### Looking up -/

variable {table : Table κ ν} {key : κ} {value : ν} {key other : κ}

theorem lookup_eq_some_iff :
    table.lookup key = some value ↔ ⟨key, value⟩ ∈ table.entries :=
  AList.mem_lookup_iff

theorem entries_split (found : table.lookup key = some value) :
    ∃ before after, table.entries = before ++ ⟨key, value⟩ :: after ∧ key ∉ before.keys ∧
      (table.erase key).entries = before ++ after := by
  obtain ⟨value', before, after, absent, split, erased⟩ :=
    List.exists_of_kerase (List.mem_keys_of_mem (lookup_eq_some_iff.mp found))
  have row : (⟨key, value'⟩ : Sigma fun _ : κ => ν) ∈ table.entries := by
    rw [split]
    exact List.mem_append_right _ List.mem_cons_self
  have same : some value = some value' := found.symm.trans (lookup_eq_some_iff.mpr row)
  cases same
  exact ⟨before, after, split, absent, erased⟩

/-! ### Erasing -/

theorem erase_of_none (absent : table.lookup key = none) :
    table.erase key = table :=
  AList.ext (List.kerase_of_notMem_keys (AList.lookup_eq_none.mp absent))

theorem size_erase (found : table.lookup key = some value) :
    size (table.erase key) + 1 = size table := by
  obtain ⟨before, after, split, -, erased⟩ := entries_split found
  unfold size
  rw [erased, split, List.length_append, List.length_append, List.length_cons]
  omega

theorem size_erase_le (table : Table κ ν) (key : κ) : size (table.erase key) ≤ size table := by
  cases found : table.lookup key with
  | none => rw [erase_of_none found]
  | some value =>
    have counted := size_erase found
    omega

/-- **Erasing a row** takes its weight off. -/
theorem weight_erase (weigh : ν → Nat) (found : table.lookup key = some value) :
    weight weigh (table.erase key) + weigh value = weight weigh table := by
  obtain ⟨before, after, split, -, erased⟩ := entries_split found
  unfold weight values
  rw [erased, split]
  simp only [List.map_append, List.map_cons, List.sum_append, List.sum_cons]
  omega

theorem weigh_le_weight (weigh : ν → Nat)
    (found : table.lookup key = some value) : weigh value ≤ weight weigh table := by
  have parts := weight_erase weigh found
  omega

theorem lookup_erase_of_ne (different : other ≠ key) :
    (table.erase key).lookup other = table.lookup other :=
  AList.lookup_erase_ne different

theorem lookup_of_lookup_erase (found : (table.erase key).lookup other = some value) :
    other ≠ key ∧ table.lookup other = some value := by
  have different : other ≠ key := by
    rintro rfl
    rw [AList.lookup_erase] at found
    cases found
  exact ⟨different, (lookup_erase_of_ne different).symm.trans found⟩

/-! ### Inserting -/

theorem size_insert_of_none (absent : table.lookup key = none)
    (value : ν) : size (table.insert key value) = size table + 1 := by
  unfold size
  rw [AList.entries_insert_of_notMem (AList.lookup_eq_none.mp absent), List.length_cons]

/-- **Inserting a row** adds its weight. -/
theorem weight_insert (weigh : ν → Nat) (absent : table.lookup key = none) (value : ν) :
    weight weigh (table.insert key value) = weight weigh table + weigh value := by
  unfold weight values
  rw [AList.entries_insert_of_notMem (AList.lookup_eq_none.mp absent)]
  simp only [List.map_cons, List.sum_cons]
  omega

theorem lookup_insert_of_ne (different : other ≠ key) :
    (table.insert key value).lookup other = table.lookup other :=
  AList.lookup_insert_ne different

/-! ### Replacing -/

theorem kreplace_append {before after : List (Sigma fun _ : κ => ν)} {value other : ν}
    (absent : key ∉ before.keys) :
    List.kreplace key other (before ++ ⟨key, value⟩ :: after) = before ++ ⟨key, other⟩ :: after := by
  unfold List.kreplace
  induction before with
  | nil => exact List.lookmap_cons_some _ _ (by simp)
  | cons head tail ih =>
    have different : key ≠ head.1 := fun same => absent (same ▸ List.mem_cons_self)
    rw [List.cons_append, List.lookmap_cons_none _ _ (by simp [different]),
      ih fun member => absent (List.mem_cons_of_mem _ member), List.cons_append]

theorem replace_entries (found : table.lookup key = some value) (other : ν) :
    ∃ before after, table.entries = before ++ ⟨key, value⟩ :: after ∧
      (table.replace key other).entries = before ++ ⟨key, other⟩ :: after := by
  obtain ⟨before, after, split, absent, -⟩ := entries_split found
  refine ⟨before, after, split, ?_⟩
  show List.kreplace key other table.entries = _
  rw [split, kreplace_append absent]

theorem size_replace (table : Table κ ν) (key : κ) (value : ν) :
    size (table.replace key value) = size table := by
  have keys := congrArg List.length (AList.keys_replace key value table)
  simpa [AList.keys, List.keys, size] using keys

/-- **Replacing a value** moves the weight by the change of its weight. -/
theorem weight_replace (weigh : ν → Nat) (found : table.lookup key = some value) (other : ν) :
    weight weigh (table.replace key other) + weigh value = weight weigh table + weigh other := by
  obtain ⟨before, after, split, replaced⟩ := replace_entries found other
  unfold weight values
  rw [replaced, split]
  simp only [List.map_append, List.map_cons, List.sum_append, List.sum_cons]
  omega

theorem lookup_replace (found : table.lookup key = some value) (other : ν) :
    (table.replace key other).lookup key = some other := by
  obtain ⟨before, after, split, replaced⟩ := replace_entries found other
  rw [lookup_eq_some_iff, replaced]
  exact List.mem_append_right _ List.mem_cons_self

theorem lookup_replace_of_ne (value : ν)
    (different : other ≠ key) : (table.replace key value).lookup other = table.lookup other := by
  cases found : table.lookup key with
  | none =>
    have same : table.replace key value = table := by
      have absent : ∀ value', (⟨key, value'⟩ : Sigma fun _ : κ => ν) ∉ table.entries := by
        intro value' row
        rw [← lookup_eq_some_iff, found] at row
        cases row
      apply AList.ext
      show List.kreplace key value table.entries = table.entries
      exact List.kreplace_of_forall_not (β := fun _ => ν) key value absent
    rw [same]
  | some old =>
    obtain ⟨before, after, split, replaced⟩ := replace_entries found value
    have rows : ∀ value', (⟨other, value'⟩ : Sigma fun _ : κ => ν) ∈ (table.replace key value).entries ↔
        ⟨other, value'⟩ ∈ table.entries := by
      intro value'
      rw [replaced, split]
      simp [different]
    ext value'
    rw [lookup_eq_some_iff, lookup_eq_some_iff]
    exact rows value'

theorem lookup_of_lookup_replace {value value' : ν}
    (found : (table.replace key value).lookup other = some value') :
    (other = key ∧ value' = value) ∨ (other ≠ key ∧ table.lookup other = some value') := by
  by_cases same : other = key
  · subst same
    have member : other ∈ table := AList.mem_replace.mp (AList.lookup_isSome.mp (by rw [found]; rfl))
    obtain ⟨old, here⟩ := Option.isSome_iff_exists.mp (AList.lookup_isSome.mpr member)
    rw [lookup_replace here] at found
    exact Or.inl ⟨rfl, (Option.some.inj found).symm⟩
  · rw [lookup_replace_of_ne value same] at found
    exact Or.inr ⟨same, found⟩

end Table

end UniApi.Lib
