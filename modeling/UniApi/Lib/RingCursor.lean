/-
**A cursor that goes round a ring.**

A cursor starts at a place of a ring and moves one place at each step.

* `ringPlace_ne`: two steps less than a turn apart are at different places;
* `exists_ringPlace`: every place comes in the first turn;
* `ringPlace_before_repeat`: before a place comes again, every place has come.
-/

import Mathlib.Data.Nat.ModEq

namespace UniApi.Lib

variable {size start : ℕ}

/-- The place of a cursor after so many steps. -/
def ringPlace (size start steps : ℕ) : ℕ := (start + steps) % size

theorem ringPlace_lt (nonempty : 0 < size) (steps : ℕ) : ringPlace size start steps < size :=
  Nat.mod_lt _ nonempty

/-- Steps that are at one place are whole turns apart. -/
theorem dvd_sub_of_ringPlace_eq {first second : ℕ}
    (same : ringPlace size start first = ringPlace size start second) :
    size ∣ second - first := by
  have steps : first ≡ second [MOD size] := Nat.ModEq.add_left_cancel' start same
  rcases Nat.le_total first second with later | earlier
  · exact (Nat.modEq_iff_dvd' later).mp steps
  · rw [Nat.sub_eq_zero_of_le earlier]
    exact dvd_zero size

/-- Two steps less than a turn apart are at different places. -/
theorem ringPlace_ne {first second : ℕ} (later : first < second) (near : second < first + size) :
    ringPlace size start first ≠ ringPlace size start second := by
  intro same
  have turns := Nat.le_of_dvd (by omega) (dvd_sub_of_ringPlace_eq same)
  omega

/-- **Every place comes in the first turn**. -/
theorem exists_ringPlace {place : ℕ} (isPlace : place < size) :
    ∃ steps < size, ringPlace size start steps = place := by
  have bound : start % size < size := Nat.mod_lt _ (by omega)
  refine ⟨(place + (size - start % size)) % size, Nat.mod_lt _ (by omega), ?_⟩
  calc ringPlace size start ((place + (size - start % size)) % size)
      = (start + (place + (size - start % size))) % size := Nat.add_mod_mod _ _ _
    _ = (start % size + (place + (size - start % size))) % size := (Nat.mod_add_mod _ _ _).symm
    _ = (place + size) % size := by
      congr 1
      omega
    _ = place := by rw [Nat.add_mod_right, Nat.mod_eq_of_lt isPlace]

/-- **Before a place comes again, every place has come**. -/
theorem ringPlace_before_repeat {first second : ℕ} (later : first < second)
    (again : ringPlace size start first = ringPlace size start second) {place : ℕ}
    (isPlace : place < size) : ∃ steps < second, ringPlace size start steps = place := by
  have turns := Nat.le_of_dvd (by omega) (dvd_sub_of_ringPlace_eq again)
  obtain ⟨steps, inTurn, here⟩ : ∃ steps < size, ringPlace size start steps = place :=
    exists_ringPlace isPlace
  exact ⟨steps, by omega, here⟩

end UniApi.Lib
