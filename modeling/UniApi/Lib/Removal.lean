/-
**Taking a word out of a text: `text.replace(word, "")`.**

Occurrences are taken out from the left, and none is looked for across the place where one was.

* `remove_induct`: the cases of a text from which a word is taken;
* `filter_remove`, `length_remove`: what is left of the letters;
* `Marked`: a word whose first letter comes once in it,
  which no other occurrence of that letter can cut;
* `Marked.unique`: a text around such a word.
-/

import UniApi.Lib.PyText

namespace UniApi.Lib

namespace PyText

/-! ### Taking out -/

/-- `text.replace(word, "")`. -/
def remove (word text : PyText) : PyText := replace word [] text

theorem replaceFrom_drop (old new : PyText) : ∀ (skipped : ℕ) (text : PyText),
    replaceFrom old new skipped text = replace old new (text.drop skipped)
  | 0, _ => rfl
  | _ + 1, [] => rfl
  | skipped + 1, _ :: text => replaceFrom_drop old new skipped text

section Remove

variable {word text : PyText}

theorem remove_word (nonempty : word ≠ []) (rest : PyText) :
    remove word (word ++ rest) = remove word rest := by
  obtain ⟨first, tail, rfl⟩ := List.exists_cons_of_ne_nil nonempty
  have found : (first :: tail).isPrefixOf (first :: (tail ++ rest)) = true :=
    List.isPrefixOf_iff_prefix.mpr (List.prefix_append (first :: tail) rest)
  show replaceFrom _ _ 0 (first :: (tail ++ rest)) = _
  rw [replaceFrom, if_pos found, replaceFrom_drop, List.nil_append]
  show replace _ _ ((tail ++ rest).drop tail.length) = _
  rw [List.drop_left]
  rfl

theorem remove_cons {letter : CodePoint} (absent : ¬ word <+: letter :: text) :
    remove word (letter :: text) = letter :: remove word text :=
  if_neg (mt List.isPrefixOf_iff_prefix.mp absent)

/-- **A text from which a word is taken** is empty, or begins with the word, or with a letter
that stays. -/
theorem remove_induct {motive : PyText → Prop} (nonempty : word ≠ []) (nil : motive [])
    (found : ∀ rest, motive rest → motive (word ++ rest))
    (stays : ∀ letter text, ¬ word <+: letter :: text → motive text → motive
      (letter :: text)) (text : PyText) :
    motive text := by
  induction isSize : text.length using Nat.strong_induction_on generalizing text with
  | _ size ih =>
    cases text with
    | nil => exact nil
    | cons letter rest =>
      by_cases begins : word <+: letter :: rest
      · obtain ⟨behind, same⟩ := begins
        have shorter : behind.length < size := by
          rw [← isSize, ← same, List.length_append]
          have := List.length_pos_of_ne_nil nonempty
          omega
        rw [← same]
        exact found behind (ih behind.length shorter behind rfl)
      · refine stays letter rest begins (ih rest.length ?_ rest rfl)
        rw [← isSize, List.length_cons]
        exact Nat.lt_succ_self _

theorem remove_of_absent (absent : ¬ word <:+: text) : remove word text = text := by
  induction text with
  | nil => rfl
  | cons letter text ih =>
    rw [List.infix_cons_iff, not_or] at absent
    rw [remove_cons absent.1, ih absent.2]

theorem remove_sublist (nonempty : word ≠ []) (text : PyText) : (remove word text).Sublist text := by
  induction text using remove_induct nonempty with
  | nil => exact .slnil
  | found rest ih =>
    rw [remove_word nonempty]
    exact ih.trans (List.sublist_append_right _ _)
  | stays letter text absent ih =>
    rw [remove_cons absent]
    exact ih.cons_cons _

/-- Letters that the word has not are left as they are. -/
theorem filter_remove (nonempty : word ≠ []) {keep : CodePoint → Bool}
    (apart : ∀ letter ∈ word, keep letter = false)
    (text : PyText) : (remove word text).filter keep = text.filter keep := by
  induction text using remove_induct nonempty with
  | nil => rfl
  | found rest ih =>
    have none : word.filter keep = [] := List.filter_eq_nil_iff.mpr fun letter among =>
        by simp [apart letter among]
    rw [remove_word nonempty, ih, List.filter_append, none, List.nil_append]
  | stays letter text absent ih => rw [remove_cons absent, List.filter_cons, List.filter_cons, ih]

/-- **What is taken out is missing**, of letters of any kind. -/
theorem length_remove (nonempty : word ≠ []) (keep : CodePoint → Bool) {text : PyText}
    (found : word <:+: text) :
    ((remove word text).filter keep).length + (word.filter keep).length ≤
      (text.filter keep).length := by
  induction text using remove_induct nonempty with
  | nil => exact absurd (List.eq_nil_of_infix_nil found) nonempty
  | found rest _ =>
    have fewer := ((remove_sublist nonempty rest).filter keep).length_le
    rw [remove_word nonempty, List.filter_append, List.length_append]
    omega
  | stays letter text absent ih =>
    have inside : word <:+: text := (List.infix_cons_iff.mp found).resolve_left absent
    have here := ih inside
    rw [remove_cons absent, List.filter_cons, List.filter_cons]
    split_ifs
    · rw [List.length_cons, List.length_cons]
      omega
    · exact here

end Remove

/-! ### Words with a mark -/

/-- The first letter of the word comes once in it. -/
structure Marked (word : PyText) (mark : CodePoint) : Prop where
  begins : ∃ tail, word = mark :: tail ∧ mark ∉ tail

section Marked

variable {word front back : PyText} {mark : CodePoint}

theorem Marked.ne_nil (marked : Marked word mark) : word ≠ [] := by
  obtain ⟨tail, rfl, -⟩ := marked.begins
  exact List.cons_ne_nil _ _

/-- The mark does not cut an occurrence at the beginning. -/
theorem Marked.prefix_of_append (marked : Marked word mark) (some_ : front ≠ [])
    (found : word <+: front ++ mark :: back) : word <+: front := by
  obtain ⟨tail, rfl, once⟩ := marked.begins
  obtain ⟨first, front, rfl⟩ := List.exists_cons_of_ne_nil some_
  rw [List.cons_append, List.cons_prefix_cons] at found
  obtain ⟨rfl, found⟩ := found
  refine List.cons_prefix_cons.mpr ⟨rfl, ?_⟩
  have whole : front ++ [mark] <+: front ++ mark :: back := by
    exact ⟨back, by rw [List.append_assoc]; rfl⟩
  rcases List.prefix_or_prefix_of_prefix found whole with short | long
  · rcases List.prefix_concat_iff.mp short with same | inside
    · exact absurd (by rw [same]; simp) once
    · exact inside
  · exact absurd (long.subset (by simp)) once

/-- The mark cuts no occurrence. -/
theorem Marked.infix_append (marked : Marked word mark) :
    ∀ {front : PyText}, word <:+: front ++ mark :: back → word <:+: front ∨ word <:+: mark :: back
  | [], found => .inr found
  | letter :: front, found => by
    rcases List.infix_cons_iff.mp found with begins | later
    · exact .inl (marked.prefix_of_append (List.cons_ne_nil letter front) begins).isInfix
    · exact (marked.infix_append later).imp_left fun inside => inside.trans
        (List.suffix_cons _ _).isInfix

/-- Letters without the mark hold no part of an occurrence that ends behind them. -/
theorem Marked.infix_of_not_mem (marked : Marked word mark) :
    ∀ {front : PyText}, mark ∉ front → word <:+: front ++ back → word <:+: back
  | [], _, found => found
  | letter :: front, notIn, found => by
    rw [List.mem_cons, not_or] at notIn
    rcases List.infix_cons_iff.mp found with begins | later
    · obtain ⟨tail, rfl, -⟩ := marked.begins
      exact absurd (List.cons_prefix_cons.mp begins).1 notIn.1
    · exact marked.infix_of_not_mem notIn.2 later

/-- The first occurrence is taken out. -/
theorem Marked.remove_append (marked : Marked word mark) :
    ∀ {front : PyText}, ¬ word <:+: front → ∀ back,
    remove word (front ++ word ++ back) = front ++ remove word back
  | [], _, back => remove_word marked.ne_nil back
  | letter :: front, absent, back => by
    rw [List.infix_cons_iff, not_or] at absent
    have stays : ¬ word <+: letter :: (front ++ word ++ back) := by
      intro begins
      obtain ⟨tail, rfl, once⟩ := marked.begins
      rw [List.append_assoc, List.cons_append, ← List.cons_append] at begins
      exact absent.1 (marked.prefix_of_append (List.cons_ne_nil _ _) begins)
    show remove word (letter :: (front ++ word ++ back)) = _
    rw [remove_cons stays, marked.remove_append absent.2]
    rfl

/-- A text with the word has a first occurrence of it. -/
theorem Marked.exists_first (marked : Marked word mark) {text : PyText} (found : word <:+: text) :
    ∃ front back, text = front ++ word ++ back ∧ ¬ word <:+: front := by
  induction text with
  | nil => exact absurd (List.eq_nil_of_infix_nil found) marked.ne_nil
  | cons letter text ih =>
    by_cases begins : word <+: letter :: text
    · obtain ⟨back, same⟩ := begins
      exact ⟨[], back, same.symm, fun empty => marked.ne_nil (List.eq_nil_of_infix_nil empty)⟩
    · obtain ⟨front, back, same, absent⟩ := ih ((List.infix_cons_iff.mp found).resolve_left begins)
      refine ⟨letter :: front, back, by rw [same]; rfl, fun inside => ?_⟩
      rcases List.infix_cons_iff.mp inside with here | later
      · refine begins (here.trans ?_)
        rw [same, List.append_assoc]
        exact List.prefix_append (letter :: front) _
      · exact absent later

theorem Marked.splitOnce_append (marked : Marked word mark) :
    ∀ {front : PyText}, ¬ word <:+: front → ∀ back,
    splitOnce word (front ++ word ++ back) = some (front, back)
  | [], _, back => by
    obtain ⟨tail, rfl, -⟩ := marked.begins
    have found : (mark :: tail).isPrefixOf (mark :: (tail ++ back)) = true :=
      List.isPrefixOf_iff_prefix.mpr (List.prefix_append (mark :: tail) back)
    show splitOnce (mark :: tail) (mark :: (tail ++ back)) = _
    rw [splitOnce, if_pos found]
    show some ([], (tail ++ back).drop tail.length) = _
    rw [List.drop_left]
  | letter :: front, absent, back => by
    rw [List.infix_cons_iff, not_or] at absent
    have stays : ¬ word <+: letter :: (front ++ word ++ back) := by
      intro begins
      obtain ⟨tail, rfl, once⟩ := marked.begins
      rw [List.append_assoc, List.cons_append, ← List.cons_append] at begins
      exact absent.1 (marked.prefix_of_append (List.cons_ne_nil _ _) begins)
    show splitOnce word (letter :: (front ++ word ++ back)) = _
    rw [splitOnce, if_neg (mt List.isPrefixOf_iff_prefix.mp stays), marked.splitOnce_append absent.2]
    rfl

/-- **A text around a marked word**, where it comes once. -/
theorem Marked.unique (marked : Marked word mark) {front back front' back' : PyText}
    (absent : ¬ word <:+: front)
    (absent' : ¬ word <:+: back) (same : front' ++ word ++ back' = front ++ word ++ back) :
    front' = front ∧ back' = back := by
  obtain ⟨tail, rfl, once⟩ := marked.begins
  rw [List.append_assoc, List.append_assoc] at same
  rcases List.append_eq_append_iff.mp same with ⟨more, rfl, rest⟩ | ⟨more, rfl, rest⟩
  · -- the one occurrence begins earlier than the other
    cases more with
    | nil => exact ⟨(List.append_nil _).symm, List.append_cancel_left rest⟩
    | cons letter more =>
      have inside := marked.prefix_of_append (List.cons_ne_nil letter more) ⟨back', rest⟩
      exact absurd (inside.isInfix.trans (List.suffix_append front' _).isInfix) absent
  · cases more with
    | nil => exact ⟨List.append_nil _, (List.append_cancel_left rest).symm⟩
    | cons letter more =>
      obtain ⟨between, inside⟩ := marked.prefix_of_append (List.cons_ne_nil letter more) ⟨back, rest⟩
      rw [← inside, List.append_assoc] at rest
      have isBack := List.append_cancel_left rest
      exact absurd ⟨between, back', by rw [isBack, List.append_assoc]⟩ absent'

end Marked

/-- An occurrence in two texts is in one of them, or is cut. -/
theorem infix_append_cases {word : PyText} : ∀ {first second : PyText}, word <:+: first ++ second →
    word <:+: first ∨ word <:+: second ∨ ∃ front left right back, first = front ++ left ∧
      second = right ++ back ∧ word = left ++ right ∧ left ≠ [] ∧ right ≠ []
  | [], second, found => .inr (.inl found)
  | letter :: first, second, found => by
    rcases List.infix_cons_iff.mp found with ⟨behind, begins⟩ | later
    · rcases List.append_eq_append_iff.mp
        (show _ = (letter :: first) ++ second from begins) with ⟨more, same, -⟩ | ⟨more, same, rest⟩
      · exact .inl ⟨[], more, by rw [same]; rfl⟩
      · cases more with
        | nil => exact .inl ⟨[], [], by rw [same]; simp⟩
        | cons next more =>
          exact .inr (.inr ⟨[], letter :: first, next :: more, behind, rfl, rest, same,
            List.cons_ne_nil _ _,
            List.cons_ne_nil _ _⟩)
    · rcases infix_append_cases later with inside | inside |
        ⟨front, left, right, back, rfl, isSecond, isWord, some_⟩
      · exact .inl (inside.trans (List.suffix_cons _ _).isInfix)
      · exact .inr (.inl inside)
      · exact .inr (.inr ⟨letter :: front, left, right, back, rfl, isSecond, isWord, some_⟩)

end PyText

end UniApi.Lib
