/-
**Regular expressions that are matched by backtracking.**

`run` lists the ways in which an expression matches at a place, in the order in which a backtracking
matcher tries them; the first way of the whole expression is the match. Repetitions are greedy, and only
classes of letters are repeated.

* `flatMap_many`, `flatMap_plus`: a repetition whose letters cannot start what follows has one way;
* `run_literal`: a literal matches in one way, or in none;
* `search_skip`: a search passes over the places where nothing matches.
-/

import Mathlib.Data.List.Basic
import Mathlib.Data.List.Forall2

namespace UniApi.Lib

inductive Regex (α : Type) where
  | empty
  | one (test : α → Bool)
  | seq (first second : Regex α)
  | alt (first second : Regex α)
  /-- `[...]*` -/
  | many (test : α → Bool)
  /-- `(...)` -/
  | group (inner : Regex α)
  /-- `\b`, by what a letter of a word is. -/
  | edge (word : α → Bool)

/-- A place in a text: the letter before it, what is behind it, and the groups that were closed so far. -/
structure Cursor (α : Type) where
  before : Option α
  rest : List α
  groups : List (List α) := []

namespace Regex

variable {α β γ : Type}

/-- The letter before a place, once a text was read. -/
def lastOf (before : Option α) (text : List α) : Option α := text.foldl (fun _ letter => some letter) before

/-- How far a class can be repeated, the longest way first. -/
def spans (test : α → Bool) : Option α → List α → List (Option α × List α)
  | before, [] => [(before, [])]
  | before, letter :: rest =>
    if test letter then spans test (some letter) rest ++ [(before, letter :: rest)]
    else [(before, letter :: rest)]

/-- Between a letter of a word and something else. -/
def isEdge (word : α → Bool) (place : Cursor α) : Bool :=
  place.before.any word != place.rest.head?.any word

/-- The ways in which an expression matches, in the order in which they are tried. -/
def run : Regex α → Cursor α → List (Cursor α)
  | .empty, place => [place]
  | .one test, place =>
    match place.rest with
    | [] => []
    | letter :: rest => if test letter then [⟨some letter, rest, place.groups⟩] else []
  | .seq first second, place => (first.run place).flatMap fun next => second.run next
  | .alt first second, place => first.run place ++ second.run place
  | .many test, place =>
    (spans test place.before place.rest).map fun span => ⟨span.1, span.2, place.groups⟩
  | .group inner, place =>
    (inner.run place).map fun next =>
      { next with groups := next.groups ++ [place.rest.take (place.rest.length - next.rest.length)] }
  | .edge word, place => if isEdge word place then [place] else []

/-- `[...]+` -/
def plus (test : α → Bool) : Regex α := .seq (.one test) (.many test)

/-- `(?:...)?` -/
def optional (inner : Regex α) : Regex α := .alt inner .empty

/-- The letters of a text, one behind the other. -/
def literal (same : β → α → Bool) : List β → Regex α
  | [] => .empty
  | letter :: rest => .seq (.one (same letter)) (literal same rest)

/-- `re.search`, from a place on. -/
def search (expression : Regex α) : Option α → List α → Option (Cursor α)
  | before, [] => (expression.run ⟨before, [], []⟩).head?
  | before, letter :: rest =>
    ((expression.run ⟨before, letter :: rest, []⟩).head?).or (search expression (some letter) rest)

/-! ### Letters before a place -/

theorem lastOf_append (before : Option α) (first second : List α) :
    lastOf before (first ++ second) = lastOf (lastOf before first) second := List.foldl_append

theorem lastOf_mem {text : List α} (nonempty : text ≠ []) (before : Option α) :
    ∃ letter ∈ text, lastOf before text = some letter := by
  obtain ⟨front, last, rfl⟩ := (List.eq_nil_or_concat' text).resolve_left nonempty
  exact ⟨last, by simp, by rw [lastOf_append]; rfl⟩

theorem lastOf_of_ne_nil {text : List α} (nonempty : text ≠ []) (before : Option α) :
    lastOf before text = lastOf none text := by
  obtain ⟨letter, rest, rfl⟩ := List.exists_cons_of_ne_nil nonempty
  rfl

/-! ### Repetitions and literals -/

section Texts

variable {before : Option α} {text rest : List α} {groups : List (List α)} {test : α → Bool}

/-- **A repetition has one way,** if no letter that it leaves can start what follows. -/
theorem flatMap_many {later : Cursor α → List γ} (all : ∀ letter ∈ text, test letter = true)
    (stops : ∀ letter ∈ rest.head?, test letter = false)
    (fails : ∀ letter ∈ text, ∀ before behind, later ⟨before, letter :: behind, groups⟩ = []) :
    ((many test).run ⟨before, text ++ rest, groups⟩).flatMap later =
      later ⟨lastOf before text, rest, groups⟩ := by
  show ((spans test before (text ++ rest)).map fun span => Cursor.mk span.1 span.2 groups).flatMap later = _
  induction text generalizing before with
  | nil =>
    have alone : spans test before rest = [(before, rest)] := by
      cases rest with
      | nil => rfl
      | cons letter rest => rw [spans, if_neg (by simp [stops letter rfl])]
    rw [List.nil_append, alone, List.map_singleton, List.flatMap_singleton]
    rfl
  | cons letter text ih =>
    rw [List.cons_append, spans, if_pos (all letter List.mem_cons_self), List.map_append, List.flatMap_append,
      List.map_singleton, List.flatMap_singleton, fails letter List.mem_cons_self, List.append_nil]
    exact ih (fun other there => all other (List.mem_cons_of_mem _ there))
      fun other there => fails other (List.mem_cons_of_mem _ there)

theorem flatMap_plus {later : Cursor α → List γ} (nonempty : text ≠ [])
    (all : ∀ letter ∈ text, test letter = true) (stops : ∀ letter ∈ rest.head?, test letter = false)
    (fails : ∀ letter ∈ text, ∀ before behind, later ⟨before, letter :: behind, groups⟩ = []) :
    ((plus test).run ⟨before, text ++ rest, groups⟩).flatMap later =
      later ⟨lastOf before text, rest, groups⟩ := by
  obtain ⟨letter, text, rfl⟩ := List.exists_cons_of_ne_nil nonempty
  show ((if test letter then [Cursor.mk (some letter) (text ++ rest) groups] else []).flatMap
    (many test).run).flatMap later = _
  rw [if_pos (all letter List.mem_cons_self), List.flatMap_singleton]
  exact flatMap_many (fun other there => all other (List.mem_cons_of_mem _ there)) stops
    fun other there => fails other (List.mem_cons_of_mem _ there)

theorem run_plus_none (stops : ∀ letter ∈ rest.head?, test letter = false) :
    (plus test).run ⟨before, rest, groups⟩ = [] := by
  cases rest with
  | nil => rfl
  | cons letter rest =>
    show (if test letter then [Cursor.mk (some letter) rest groups] else []).flatMap _ = []
    rw [if_neg (by simp [stops letter rfl])]
    rfl

variable {same : β → α → Bool} {letters : List β}

/-- A literal matches the texts that are the same, letter by letter. -/
theorem run_literal (matched : List.Forall₂ (fun letter found => same letter found = true) letters text) :
    (literal same letters).run ⟨before, text ++ rest, groups⟩ = [⟨lastOf before text, rest, groups⟩] := by
  induction matched generalizing before with
  | nil => rfl
  | @cons letter found letters text here _ ih =>
    show (if same letter found then [Cursor.mk (some found) (text ++ rest) groups] else []).flatMap
      (literal same letters).run = [⟨lastOf (some found) text, rest, groups⟩]
    rw [if_pos here, List.flatMap_singleton]
    exact ih

/-- A literal fails, or it matches in one way. -/
theorem run_literal_cases (same : β → α → Bool) (letters : List β) (place : Cursor α) :
    (literal same letters).run place = [] ∨ ∃ text rest, place.rest = text ++ rest ∧
      List.Forall₂ (fun letter found => same letter found = true) letters text ∧
      (literal same letters).run place = [⟨lastOf place.before text, rest, place.groups⟩] := by
  induction letters generalizing place with
  | nil => exact .inr ⟨[], place.rest, rfl, .nil, rfl⟩
  | cons letter letters ih =>
    obtain ⟨before, behind, groups⟩ := place
    cases behind with
    | nil => exact .inl rfl
    | cons found behind =>
      show (if same letter found then [Cursor.mk (some found) behind groups] else []).flatMap
          (literal same letters).run = [] ∨ ∃ text rest, found :: behind = text ++ rest ∧
        List.Forall₂ (fun letter found => same letter found = true) (letter :: letters) text ∧
        (if same letter found then [Cursor.mk (some found) behind groups] else []).flatMap
          (literal same letters).run = [⟨lastOf before text, rest, groups⟩]
      by_cases here : same letter found = true
      · rw [if_pos here, List.flatMap_singleton]
        rcases ih ⟨some found, behind, groups⟩ with none_ | ⟨text, rest, isText, matched, runs⟩
        · exact .inl none_
        · exact .inr ⟨found :: text, rest, congrArg (found :: ·) isText, .cons here matched, runs⟩
      · rw [if_neg here]
        exact .inl rfl

theorem run_literal_none {place : Cursor α} (unmatched : ∀ text rest, place.rest = text ++ rest →
      ¬ List.Forall₂ (fun letter found => same letter found = true) letters text) :
    (literal same letters).run place = [] :=
  (run_literal_cases same letters place).resolve_right fun ⟨text, rest, isText, matched, _⟩ =>
    unmatched text rest isText matched

theorem run_literal_append (same : β → α → Bool) (front back : List β) (place : Cursor α) :
    (literal same (front ++ back)).run place =
      ((literal same front).run place).flatMap (literal same back).run := by
  induction front generalizing place with
  | nil => exact (List.flatMap_singleton _ _).symm
  | cons letter front ih =>
    show ((Regex.one (same letter)).run place).flatMap (literal same (front ++ back)).run =
      (((Regex.one (same letter)).run place).flatMap (literal same front).run).flatMap (literal same back).run
    rw [List.flatMap_assoc]
    exact List.flatMap_congr fun next _ => ih next

/-- A literal with an optional end is tried with the end first. -/
theorem run_literal_optional (same : β → α → Bool) (front back : List β) (place : Cursor α) :
    (Regex.seq (literal same front) (optional (literal same back))).run place =
      (literal same (front ++ back)).run place ++ (literal same front).run place := by
  rw [run_literal_append]
  show ((literal same front).run place).flatMap (fun next => (literal same back).run next ++ [next]) = _
  rcases run_literal_cases same front place with none_ | ⟨_, _, _, _, runs⟩
  · rw [none_]
    rfl
  · rw [runs, List.flatMap_singleton, List.flatMap_singleton]

/-- The ways of an alternative in a group come one behind the other. -/
theorem run_group_alt (first second later : Regex α) (place : Cursor α) :
    (Regex.seq (.group (.alt first second)) later).run place =
      (Regex.seq (.group first) later).run place ++ (Regex.seq (.group second) later).run place := by
  show (((first.run place ++ second.run place).map _).flatMap _ : List (Cursor α)) = _
  rw [List.map_append, List.flatMap_append]
  rfl

theorem run_group_congr {first second : Regex α} {place : Cursor α}
    (same : first.run place = second.run place) (later : Regex α) :
    (Regex.seq (.group first) later).run place = (Regex.seq (.group second) later).run place := by
  show ((first.run place).map _).flatMap _ = ((second.run place).map _).flatMap _
  rw [same]

end Texts

/-! ### Searching -/

/-- **A search passes over the places where nothing matches.** -/
theorem search_skip {expression : Regex α} {before : Option α} {front text : List α}
    (fails : ∀ start behind letter, front = start ++ letter :: behind →
      expression.run ⟨lastOf before start, letter :: behind ++ text, []⟩ = []) :
    search expression before (front ++ text) = search expression (lastOf before front) text := by
  induction front generalizing before with
  | nil => rfl
  | cons letter front ih =>
    show ((expression.run ⟨before, letter :: (front ++ text), []⟩).head?).or _ = _
    rw [show expression.run ⟨before, letter :: (front ++ text), []⟩ = [] from fails [] front letter rfl]
    refine @ih (some letter) fun start behind other isFront => ?_
    exact fails (letter :: start) behind other (by rw [isFront]; rfl)

theorem search_here {expression : Regex α} {before : Option α} {text : List α} {next : Cursor α}
    (here : (expression.run ⟨before, text, []⟩).head? = some next) :
    search expression before text = some next := by
  cases text with
  | nil => exact here
  | cons letter rest =>
    show ((expression.run ⟨before, letter :: rest, []⟩).head?).or _ = _
    rw [here]
    rfl

end Regex

end UniApi.Lib
