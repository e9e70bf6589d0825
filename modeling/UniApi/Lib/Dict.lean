/-
**Dicts in the order of insertion.**

A dict lists its entries in the order in which their keys came, and has every key once. A new value for a
key that is there takes the place of the old one.

* `get_set`, `get_pop`, `get_filterMap`: what each operation does to the value of a key.
-/

import Mathlib.Data.List.Nodup

namespace UniApi.Lib

/-- A dict: entries with distinct keys. -/
structure Dict (κ ν : Type) where
  entries : List (κ × ν)
  distinct : (entries.map Prod.fst).Nodup

namespace Dict

variable {κ ν : Type} [DecidableEq κ]

def empty : Dict κ ν := ⟨[], List.nodup_nil⟩

/-- `dict.get`. -/
def get (dict : Dict κ ν) (key : κ) : Option ν := dict.entries.lookup key

/-- The entries with a new value for a key. -/
def setEntries (key : κ) (value : ν) : List (κ × ν) → List (κ × ν)
  | [] => [(key, value)]
  | entry :: rest => if entry.1 = key then (key, value) :: rest else entry :: setEntries key value rest

theorem lookup_setEntries (key other : κ) (value : ν) (entries : List (κ × ν)) :
    (setEntries key value entries).lookup other =
      if other = key then some value else entries.lookup other := by
  induction entries with
  | nil =>
    by_cases same : other = key
    · simp [setEntries, same]
    · simp [setEntries, same]
  | cons entry rest ih =>
    unfold setEntries
    by_cases found : entry.1 = key
    · rw [if_pos found, List.lookup_cons, List.lookup_cons, found]
      by_cases same : other = key
      · rw [beq_iff_eq.mpr same, if_pos same]
      · rw [beq_eq_false_iff_ne.mpr same, if_neg same]
    · rw [if_neg found, List.lookup_cons, List.lookup_cons]
      by_cases here : other = entry.1
      · rw [beq_iff_eq.mpr here]
        exact (if_neg fun same => found (here.symm.trans same)).symm
      · rw [beq_eq_false_iff_ne.mpr here]
        exact ih

theorem mem_keys_setEntries {key other : κ} {value : ν} {entries : List (κ × ν)} :
    other ∈ (setEntries key value entries).map Prod.fst ↔ other = key ∨ other ∈ entries.map Prod.fst := by
  induction entries with
  | nil => simp [setEntries]
  | cons entry rest ih =>
    unfold setEntries
    split
    · rename_i found
      simp [found]
    · rw [List.map_cons, List.mem_cons, ih, List.map_cons, List.mem_cons]
      exact or_left_comm

theorem nodup_setEntries {key : κ} {value : ν} {entries : List (κ × ν)}
    (distinct : (entries.map Prod.fst).Nodup) : ((setEntries key value entries).map Prod.fst).Nodup := by
  induction entries with
  | nil => simp [setEntries]
  | cons entry rest ih =>
    rw [List.map_cons, List.nodup_cons] at distinct
    unfold setEntries
    split
    · rename_i found
      rw [List.map_cons, List.nodup_cons]
      exact ⟨found ▸ distinct.1, distinct.2⟩
    · rename_i apart
      rw [List.map_cons, List.nodup_cons, mem_keys_setEntries]
      exact ⟨fun there => there.elim apart distinct.1, ih distinct.2⟩

/-- `dict[key] = value`. -/
def set (dict : Dict κ ν) (key : κ) (value : ν) : Dict κ ν :=
  ⟨setEntries key value dict.entries, nodup_setEntries dict.distinct⟩

@[simp] theorem get_set (dict : Dict κ ν) (key other : κ) (value : ν) :
    (dict.set key value).get other = if other = key then some value else dict.get other :=
  lookup_setEntries key other value dict.entries

/-- The entries whose values are kept, with what becomes of them. -/
def filterMap {ω : Type} (dict : Dict κ ν) (keep : ν → Option ω) : Dict κ ω where
  entries := dict.entries.filterMap fun entry => (keep entry.2).map (Prod.mk entry.1)
  distinct := by
    refine dict.distinct.sublist ?_
    rw [List.map_filterMap]
    generalize dict.entries = entries
    induction entries with
    | nil => exact List.Sublist.slnil
    | cons entry rest ih =>
      cases kept : keep entry.2 with
      | none =>
        rw [List.filterMap_cons_none (by simp [kept])]
        exact ih.cons _
      | some value =>
        rw [List.filterMap_cons_some (b := entry.1) (by simp [kept])]
        exact ih.cons_cons _

theorem lookup_eq_none {entries : List (κ × ν)} {key : κ} (absent : key ∉ entries.map Prod.fst) :
    entries.lookup key = none := by
  rw [List.lookup_eq_none_iff]
  intro entry listed
  refine bne_iff_ne.mpr fun (same : key = entry.1) => absent ?_
  rw [same]
  exact List.mem_map_of_mem listed

@[simp] theorem get_filterMap {ω : Type} (dict : Dict κ ν) (keep : ν → Option ω) (key : κ) :
    (dict.filterMap keep).get key = (dict.get key).bind keep := by
  obtain ⟨entries, distinct⟩ := dict
  show (entries.filterMap _).lookup key = (entries.lookup key).bind keep
  induction entries with
  | nil => rfl
  | cons entry rest ih =>
    rw [List.map_cons, List.nodup_cons] at distinct
    have behind := ih distinct.2
    rw [List.lookup_cons]
    by_cases same : key = entry.1
    · have absent : rest.lookup key = none := lookup_eq_none (same ▸ distinct.1)
      rw [beq_iff_eq.mpr same]
      cases kept : keep entry.2 with
      | none =>
        rw [List.filterMap_cons_none (by simp [kept]), behind, absent]
        exact kept.symm
      | some value =>
        rw [List.filterMap_cons_some (b := (entry.1, value)) (by simp [kept]), List.lookup_cons,
          beq_iff_eq.mpr same]
        exact kept.symm
    · rw [beq_eq_false_iff_ne.mpr same]
      cases kept : keep entry.2 with
      | none =>
        rw [List.filterMap_cons_none (by simp [kept])]
        exact behind
      | some value =>
        rw [List.filterMap_cons_some (b := (entry.1, value)) (by simp [kept]), List.lookup_cons,
          beq_eq_false_iff_ne.mpr same]
        exact behind

/-- `dict.pop(key, None)`, without the value. -/
def pop (dict : Dict κ ν) (key : κ) : Dict κ ν where
  entries := dict.entries.filter fun entry => entry.1 != key
  distinct := dict.distinct.sublist (List.filter_sublist.map _)

@[simp] theorem get_pop (dict : Dict κ ν) (key other : κ) :
    (dict.pop key).get other = if other = key then none else dict.get other := by
  obtain ⟨entries, distinct⟩ := dict
  show (entries.filter fun entry => entry.1 != key).lookup other =
    if other = key then none else entries.lookup other
  clear distinct
  induction entries with
  | nil => simp
  | cons entry rest ih =>
    by_cases removed : entry.1 = key
    · rw [List.filter_cons, if_neg (by simp [removed]), ih, List.lookup_cons]
      by_cases same : other = key
      · rw [if_pos same, if_pos same]
      · rw [if_neg same, if_neg same, beq_eq_false_iff_ne.mpr fun here => same (here.trans removed)]
    · rw [List.filter_cons, if_pos (by simp [removed]), List.lookup_cons, List.lookup_cons]
      by_cases here : other = entry.1
      · rw [beq_iff_eq.mpr here]
        exact (if_neg fun same => removed (here.symm.trans same)).symm
      · rw [beq_eq_false_iff_ne.mpr here]
        exact ih

end Dict

end UniApi.Lib
