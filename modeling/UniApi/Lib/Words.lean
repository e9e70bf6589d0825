/-
**Words in two orders.**

A word that is cut by a letter once can be read off from the left, and from that follows which
words may change places.

* `cut_unique`: a word at the first place of a letter;
* `swap_blocks`: two words that change places around blocks of one length;
* `no_swap`: parts of a marked word that do not change places.
-/

import Mathlib.Data.List.Infix
import Mathlib.Order.Basic

namespace UniApi.Lib.Words

variable {α : Type}

/-- **The first place of a letter** cuts a word in one way. -/
theorem cut_unique {sep : α} : ∀ {front front' back back' : List α}, sep ∉ front → sep ∉ front' →
    front ++ sep :: back = front' ++ sep :: back' → front = front' ∧ back = back'
  | [], [], _, _, _, _, same => ⟨rfl, (List.cons.inj same).2⟩
  | [], letter :: _, _, _, _, absent', same => by
    obtain ⟨rfl, -⟩ := List.cons.inj same
    exact absurd List.mem_cons_self absent'
  | letter :: _, [], _, _, absent, _, same => by
    obtain ⟨rfl, -⟩ := List.cons.inj same
    exact absurd List.mem_cons_self absent
  | letter :: front, other :: front', _, _, absent, absent', same => by
    obtain ⟨rfl, rest⟩ := List.cons.inj same
    obtain ⟨rfl, rfl⟩ := cut_unique (fun there => absent (List.mem_cons_of_mem _ there))
      (fun there => absent' (List.mem_cons_of_mem _ there)) rest
    exact ⟨rfl, rfl⟩

/-- A word that begins later is not as long. -/
theorem swap_blocks_shifted {sep : α} {first h k w : List α} (sameLength : h.length = k.length)
    (noH : sep ∉ h) (noK : sep ∉ k) (same : h ++ sep :: (first ++ w) = w ++ (k ++ sep :: first))
    (shorter : ∀ rest : List α, rest.length < w.length →
      first ++ (h ++ sep :: rest) = rest ++ (k ++ sep :: first) → h = k) : h = k := by
  by_cases inside : sep ∈ w
  · obtain ⟨front, back, rfl, absent⟩ := List.eq_append_cons_of_mem inside
    rw [List.append_assoc, List.cons_append] at same
    obtain ⟨rfl, rest⟩ := cut_unique noH absent same
    exact shorter back (by simp only [List.length_append, List.length_cons]; omega) rest
  · have noBoth : sep ∉ w ++ k := by simp [inside, noK]
    rw [← List.append_assoc] at same
    obtain ⟨rfl, -⟩ := cut_unique noH noBoth same
    rw [List.length_append] at sameLength
    have empty : w = [] := List.eq_nil_of_length_eq_zero (by omega)
    rw [empty, List.nil_append]

/-- **Words that change places around blocks**: blocks of one length without the letter behind
them are equal. -/
theorem swap_blocks {sep : α} {h k : List α} (sameLength : h.length = k.length)
    (noH : sep ∉ h) (noK : sep ∉ k) (first second : List α)
    (same : first ++ (h ++ sep :: second) = second ++ (k ++ sep :: first)) : h = k := by
  induction size : first.length + second.length using Nat.strongRecOn
    generalizing first second h k with
  | ind total ih =>
    rcases List.append_eq_append_iff.mp same with ⟨w, rfl, rest⟩ | ⟨w, rfl, rest⟩
    · refine swap_blocks_shifted sameLength noH noK rest fun shorter fewer same' => ?_
      have fewer' : first.length + shorter.length < total := by
        rw [← size, List.length_append]
        omega
      exact ih _ fewer' sameLength noH noK first shorter same' rfl
    · refine (swap_blocks_shifted sameLength.symm noK noH rest fun shorter fewer same' => ?_).symm
      have fewer' : shorter.length + second.length < total := by
        rw [← size, List.length_append]
        omega
      exact (ih _ fewer' sameLength noH noK shorter second same'.symm rfl).symm

/-- A word in front of a marked one does not move behind it. -/
theorem no_shift {mark : α} {a b : List α} (marked : mark ∈ a) (unmarked : mark ∉ b) (some_ : b ≠ [])
    (p rest rest' : List α) (same : b ++ (p ++ a ++ rest) = p ++ a ++ rest') : False := by
  have inside : mark ∈ p ++ a := List.mem_append_right _ marked
  obtain ⟨front, back, isCut, absent⟩ := List.eq_append_cons_of_mem inside
  rw [isCut, List.append_assoc, List.append_assoc, ← List.append_assoc b] at same
  have noFront : mark ∉ b ++ front := by simp [unmarked, absent]
  obtain ⟨longer, -⟩ := cut_unique noFront absent same
  have size := congrArg List.length longer
  rw [List.length_append] at size
  exact some_ (List.eq_nil_of_length_eq_zero (by omega))

/-- **The two parts of a marked word do not change places**, if what is behind is cut by another
letter. -/
theorem no_swap {mark sep : α} {p a b q c h : List α} (marked : mark ∈ a)
    (unmarked : mark ∉ b) (some_ : b ≠ [])
    (noA : sep ∉ a) (noB : sep ∉ b) (cut : h = [] ∨ sep ∈ p ++ a ++ c)
    (whole : p ++ a ++ c ++ h = q ++ (a ++ b) ++ c) (part : p ++ h = b ++ q) : False := by
  have same : b ++ (p ++ a ++ (c ++ h)) = p ++ h ++ (a ++ (b ++ c)) := by
    calc b ++ (p ++ a ++ (c ++ h)) = b ++ (p ++ a ++ c ++ h) := by simp
      _ = b ++ q ++ (a ++ (b ++ c)) := by rw [whole]; simp
      _ = p ++ h ++ (a ++ (b ++ c)) := by rw [part]
  rcases cut with rfl | inside
  · refine no_shift marked unmarked some_ p (c ++ []) (b ++ c) (same.trans ?_)
    simp
  by_cases inP : sep ∈ p
  · obtain ⟨front, back, rfl, absent⟩ := List.eq_append_cons_of_mem inP
    have noFront : sep ∉ b ++ front := by simp [noB, absent]
    rw [List.append_assoc, List.append_assoc, List.append_assoc, List.append_assoc,
      ← List.append_assoc b,
      List.cons_append, List.cons_append] at same
    obtain ⟨longer, -⟩ := cut_unique noFront absent same
    have size := congrArg List.length longer
    rw [List.length_append] at size
    exact some_ (List.eq_nil_of_length_eq_zero (by omega))
  have inC : sep ∈ c := by simpa [inP, noA] using inside
  obtain ⟨front, back, rfl, absent⟩ := List.eq_append_cons_of_mem inC
  by_cases inH : sep ∈ h
  · obtain ⟨head, tail, rfl, absentHead⟩ := List.eq_append_cons_of_mem inH
    have left : b ++ (p ++ a ++ (front ++ sep :: back ++ (head ++ sep :: tail))) =
        (b ++ p ++ a ++ front) ++ sep :: (back ++ (head ++ sep :: tail)) := by simp
    have right : p ++ (head ++ sep :: tail) ++ (a ++ (b ++ (front ++ sep :: back))) =
        (p ++ head) ++ sep :: (tail ++ ((a ++ b ++ front) ++ sep :: back)) := by simp
    rw [left, right] at same
    obtain ⟨blocks, rest⟩ := cut_unique (by simp [noB, inP, noA, absent])
      (by simp [inP, absentHead]) same
    have size := congrArg List.length blocks
    simp only [List.length_append] at size
    have isHead : head = a ++ b ++ front :=
        swap_blocks (by simp only [List.length_append]; omega) absentHead
      (by simp [noA, noB, absent]) back tail rest
    rw [isHead] at blocks
    refine no_shift marked unmarked some_ p front (b ++ front) (Eq.trans ?_ (blocks.trans ?_))
    · simp
    · simp
  · have left : b ++ (p ++ a ++ (front ++ sep :: back ++ h)) = (b ++ p ++ a ++ front)
      ++ sep :: (back ++ h) := by simp
    have right : p ++ h ++ (a ++ (b ++ (front ++ sep :: back))) =
        (p ++ h ++ a ++ b ++ front) ++ sep :: back := by simp
    rw [left, right] at same
    obtain ⟨blocks, -⟩ := cut_unique (by simp [noB, inP, noA, absent])
      (by simp [inP, inH, noA, noB, absent]) same
    have size := congrArg List.length blocks
    simp only [List.length_append] at size
    have empty : h = [] := List.eq_nil_of_length_eq_zero (by omega)
    rw [empty] at blocks
    refine no_shift marked unmarked some_ p front (b ++ front) (Eq.trans ?_ (blocks.trans ?_))
    · simp
    · simp

end UniApi.Lib.Words
