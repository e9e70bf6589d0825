/-
**Renamings that grow along a stream.**

A table of new names is extended while a stream is read, and every name is renamed by the table of its
time. `Faithful` says when the renamed names are apart.

* `Faithful.injOn`: a faithful table renames different names differently;
* `Faithful.grow`: what new entries and new names must avoid for a table to stay faithful;
* `rename_append`: a name without a new entry keeps its renaming.
-/

import Mathlib.Data.Set.Function

namespace UniApi.Lib

variable {α : Type} [BEq α]

/-- What a table gives a name is one of its entries. -/
theorem mem_of_lookup [LawfulBEq α] {table : List (α × α)} {name target : α}
    (found : table.lookup name = some target) : (name, target) ∈ table := by
  obtain ⟨before, after, rfl, -⟩ := List.lookup_eq_some_iff.mp found
  exact List.mem_append_right _ List.mem_cons_self

/-- The name that a table gives a name: another one if the table has it, else its own. -/
def rename (table : List (α × α)) (name : α) : α := (table.lookup name).getD name

theorem rename_of_some {table : List (α × α)} {name target : α} (found : table.lookup name = some target) :
    rename table name = target := by
  rw [rename, found, Option.getD_some]

theorem rename_of_none {table : List (α × α)} {name : α} (absent : table.lookup name = none) :
    rename table name = name := by
  rw [rename, absent, Option.getD_none]

/-- New entries in front of a table leave other names as they are. -/
theorem rename_append {added table : List (α × α)} {name : α} (absent : added.lookup name = none) :
    rename (added ++ table) name = rename table name := by
  rw [rename, List.lookup_append, absent, Option.none_or, rename]

/-- Different names have different targets, and no target is a name that keeps its own. -/
structure Faithful (table : List (α × α)) (names : Set α) : Prop where
  apart : ∀ {first second target}, table.lookup first = some target →
    table.lookup second = some target → first = second
  free : ∀ {name}, name ∈ names → table.lookup name = none → ∀ {key}, table.lookup key ≠ some name

theorem Faithful.empty (names : Set α) : Faithful ([] : List (α × α)) names where
  apart found := by cases found
  free _ _ _ found := by cases found

theorem Faithful.mono {table : List (α × α)} {names fewer : Set α} (faithful : Faithful table names)
    (subset : fewer ⊆ names) : Faithful table fewer where
  apart := faithful.apart
  free isName := faithful.free (subset isName)

/-- **A faithful table merges no names.** -/
theorem Faithful.injOn {table : List (α × α)} {names : Set α} (faithful : Faithful table names) :
    Set.InjOn (rename table) names := by
  intro first isFirst second isSecond same
  cases atFirst : table.lookup first with
  | none =>
    cases atSecond : table.lookup second with
    | none => rwa [rename_of_none atFirst, rename_of_none atSecond] at same
    | some target =>
      rw [rename_of_none atFirst, rename_of_some atSecond] at same
      exact absurd (same ▸ atSecond) (faithful.free isFirst atFirst)
  | some target =>
    cases atSecond : table.lookup second with
    | none =>
      rw [rename_of_some atFirst, rename_of_none atSecond] at same
      exact absurd (same ▸ atFirst) (faithful.free isSecond atSecond)
    | some other =>
      rw [rename_of_some atFirst, rename_of_some atSecond] at same
      exact faithful.apart atFirst (same ▸ atSecond)

/-- **A table stays faithful** when its new targets are apart from each other, from the old targets and
from every name in use, and a new name that keeps its own is no target. -/
theorem Faithful.grow {added table : List (α × α)} {names new : Set α} (faithful : Faithful table names)
    (addedApart : ∀ {first second target}, added.lookup first = some target →
      added.lookup second = some target → first = second)
    (newTarget : ∀ {key target}, added.lookup key = some target →
      ∀ {other}, table.lookup other ≠ some target)
    (unused : ∀ {key target}, added.lookup key = some target →
      ∀ {name}, name ∈ names → table.lookup name = none → name ≠ target)
    (newFree : ∀ {name}, name ∈ new → (added ++ table).lookup name = none →
      ∀ {key}, (added ++ table).lookup key ≠ some name) :
    Faithful (added ++ table) (new ∪ names) where
  apart {first second target} atFirst atSecond := by
    rw [List.lookup_append, Option.or_eq_some_iff] at atFirst atSecond
    rcases atFirst with atFirst | ⟨-, atFirst⟩
    · rcases atSecond with atSecond | ⟨-, atSecond⟩
      · exact addedApart atFirst atSecond
      · exact absurd atSecond (newTarget atFirst)
    · rcases atSecond with atSecond | ⟨-, atSecond⟩
      · exact absurd atFirst (newTarget atSecond)
      · exact faithful.apart atFirst atSecond
  free {name} isName absent key := by
    rcases isName with isNew | isOld
    · exact newFree isNew absent
    · rw [List.lookup_append, Option.or_eq_none_iff] at absent
      rw [List.lookup_append]
      intro found
      rcases Option.or_eq_some_iff.mp found with found | ⟨-, found⟩
      · exact unused found isOld absent.2 rfl
      · exact faithful.free isOld absent.2 found

end UniApi.Lib
