/-
**The brackets of a JSON text.**

What counts brackets and skips strings knows less of a text than the decoder does, and enough to find the
end of an object.

* `Tracks`, `step_tracks`: the counter beside the machine of the decoder;
* `IsObjectText`: an object, from its first brace to its last;
* `IsObjectText.open`, `IsObjectText.closed`: inside of it a bracket is open, and behind it none is;
* `IsObjectText.lineBreak`: a line break inside of it changes nothing.
-/

import Mathlib.Data.Int.Basic
import UniApi.Lib.JsonText
import UniApi.Lib.LineEndings

namespace UniApi.Lib.Json

open Scan

/-! ### Counting brackets -/

/-- How many brackets are open, and whether the text is in a string and behind a backslash. -/
structure Brackets where
  depth : ℤ := 0
  inString : Bool := false
  escaped : Bool := false

/-- One letter. -/
def Brackets.next (state : Brackets) (letter : CodePoint) : Brackets :=
  if state.inString then
    if state.escaped then { state with escaped := false }
    else if letter = 92 then { state with escaped := true }
    else if letter = 34 then { state with inString := false }
    else state
  else if letter = 34 then { state with inString := true }
  else if letter = 123 ∨ letter = 91 then { state with depth := state.depth + 1 }
  else if letter = 125 ∨ letter = 93 then { state with depth := state.depth - 1 }
  else state

/-- The brackets of a text. -/
def bracketsOf (text : List CodePoint) : Brackets := text.foldl Brackets.next {}

theorem bracketsOf_concat (text : List CodePoint) (letter : CodePoint) :
    bracketsOf (text ++ [letter]) = (bracketsOf text).next letter :=
  List.foldl_concat _ _ _ _

/-! ### Beside the machine -/

/-- Whether a mode is in a string, and behind a backslash. -/
def flags : Mode → Bool × Bool
  | .string _ _ .backslash _ => (true, true)
  | .string _ _ _ _ => (true, false)
  | _ => (false, false)

/-- **The counter follows the machine**: as many brackets are open as containers, and strings are the same. -/
structure Tracks (scan : Scan) (state : Brackets) : Prop where
  depth : state.depth = scan.stack.length
  strings : (state.inString, state.escaped) = flags scan.mode

section Tracks

variable {constants : Bool} {scan after : Scan} {state : Brackets} {letter : CodePoint}

theorem deliver_length (value : Json) (stack : List Container) : (deliver value stack).stack.length
    = stack.length := by
  cases stack with
  | nil => rfl
  | cons container rest => cases container <;> rfl

theorem deliver_flags (value : Json) (stack : List Container) : flags (deliver value stack).mode =
    (false, false) := by
  cases stack with
  | nil => rfl
  | cons container rest => cases container <;> rfl

theorem next_outside (outside : state.inString = false) : state.next letter =
    if letter = 34 then { state with inString := true }
    else if letter = 123 ∨ letter = 91 then { state with depth := state.depth + 1 }
    else if letter = 125 ∨ letter = 93 then { state with depth := state.depth - 1 }
    else state := by
  rw [Brackets.next, outside]
  rfl

variable {stack : List Container}

theorem Tracks.deliver {value : Json} (depth : state.depth = stack.length)
    (outside : (state.inString, state.escaped) = (false, false)) : Tracks (deliver value stack) state :=
  ⟨by rw [deliver_length, depth], by rw [deliver_flags, outside]⟩

theorem close_tracks (closes : close letter stack = some after)
    (depth : state.depth = stack.length) (outside : (state.inString, state.escaped) = (false, false)) :
    Tracks after (state.next letter) := by
  have outside' := (Prod.mk.inj outside).1
  cases stack with
  | nil => cases closes
  | cons container rest =>
    have shorter : ({ state with depth := state.depth - 1 } : Brackets).depth = rest.length := by
      rw [List.length_cons] at depth
      show state.depth - 1 = _
      omega
    cases container with
    | array items =>
      rw [close] at closes
      split_ifs at closes with isEnd
      cases closes
      rw [next_outside outside', isEnd]
      exact .deliver shorter outside
    | object members key =>
      rw [close] at closes
      split_ifs at closes with isEnd
      cases closes
      rw [next_outside outside', isEnd]
      exact .deliver shorter outside

theorem next_plain (outside : state.inString = false)
    (plain : letter ≠ 34 ∧ letter ≠ 123 ∧ letter ≠ 91 ∧ letter ≠ 125 ∧ letter ≠ 93) :
    state.next letter = state := by
  rw [next_outside outside, if_neg plain.1, if_neg (not_or.mpr ⟨plain.2.1, plain.2.2.1⟩),
    if_neg (not_or.mpr plain.2.2.2)]

theorem space_plain (space : isSpace letter = true) :
    letter ≠ 34 ∧ letter ≠ 123 ∧ letter ≠ 91 ∧ letter ≠ 125 ∧ letter ≠ 93 := by
  have cases : letter = 32 ∨ letter = 9 ∨ letter = 10 ∨ letter = 13 := by
    simpa [isSpace, or_assoc] using space
  rcases cases with rfl | rfl | rfl | rfl <;> decide

theorem inWord_plain (inside : inWord letter = true) :
    letter ≠ 34 ∧ letter ≠ 123 ∧ letter ≠ 91 ∧ letter ≠ 125 ∧ letter ≠ 93 := by
  refine ⟨?_, ?_, ?_, ?_, ?_⟩ <;> rintro rfl <;> exact absurd inside (by decide)

theorem startsWord_plain (starts : startsWord letter = true) :
    letter ≠ 34 ∧ letter ≠ 123 ∧ letter ≠ 91 ∧ letter ≠ 125 ∧ letter ≠ 93 := by
  refine ⟨?_, ?_, ?_, ?_, ?_⟩ <;> rintro rfl <;> exact absurd starts (by decide)

theorem openValue_tracks (opens : openValue stack letter = some after)
    (depth : state.depth = stack.length) (outside : (state.inString, state.escaped) = (false, false)) :
    Tracks after (state.next letter) := by
  obtain ⟨outside', notEscaped⟩ := Prod.mk.inj outside
  rw [openValue] at opens
  split_ifs at opens with quote bracket brace starts
  · cases opens
    rw [next_outside outside', if_pos quote]
    exact ⟨depth, by rw [notEscaped]; rfl⟩
  · cases opens
    rw [next_outside outside', bracket]
    refine ⟨?_, outside⟩
    show state.depth + 1 = ((stack.length + 1 : ℕ) : ℤ)
    omega
  · cases opens
    rw [next_outside outside', brace]
    refine ⟨?_, outside⟩
    show state.depth + 1 = ((stack.length + 1 : ℕ) : ℤ)
    omega
  · cases opens
    rw [next_plain outside' (startsWord_plain starts)]
    exact ⟨depth, outside⟩

theorem token_tracks (reads : scan.token letter = some after) (tracks : Tracks scan state)
    (outside : flags scan.mode = (false, false)) : Tracks after (state.next letter) := by
  obtain ⟨stack, mode⟩ := scan
  have outside' := tracks.strings.trans outside
  have plain := (Prod.mk.inj outside').1
  cases mode with
  | value orEnd =>
    rcases Option.or_eq_some_iff.mp reads with opens | ⟨-, closes⟩
    · exact openValue_tracks opens tracks.depth outside'
    · cases orEnd with
      | true => exact close_tracks closes tracks.depth outside'
      | false => cases closes
  | key orEnd =>
    rw [token] at reads
    dsimp only at reads
    split_ifs at reads with quote
    · cases reads
      rw [next_outside plain, if_pos quote]
      exact ⟨tracks.depth, by rw [(Prod.mk.inj outside').2]; rfl⟩
    · exact close_tracks reads tracks.depth outside'
  | colon =>
    rw [token] at reads
    dsimp only at reads
    split_ifs at reads with colon
    cases reads
    rw [next_plain plain (by rw [colon]; decide)]
    exact ⟨tracks.depth, outside'⟩
  | after =>
    rw [token] at reads
    dsimp only at reads
    split_ifs at reads with isComma
    · rw [next_plain plain (by rw [isComma]; decide)]
      cases stack with
      | nil => cases reads
      | cons container rest => cases container <;> cases reads <;> exact ⟨tracks.depth, outside'⟩
    · exact close_tracks reads tracks.depth outside'
  | done value => cases reads
  | string isKey text escape high => cases reads
  | word text => cases reads

theorem between_tracks (reads : scan.between letter = some after) (tracks : Tracks scan state)
    (outside : flags scan.mode = (false, false)) : Tracks after (state.next letter) := by
  rw [between] at reads
  split_ifs at reads with space
  · cases reads
    rw [next_plain (Prod.mk.inj (tracks.strings.trans outside)).1 (space_plain space)]
    exact tracks
  · exact token_tracks reads tracks outside

/-- **A letter of a string**: the three states of the scanner are those of the counter. -/
theorem inString_tracks {isKey high : Bool} {text : List CodePoint} {escape : Escape}
    (reads : inString stack isKey text escape high letter = some after)
    (tracks : Tracks ⟨stack, .string isKey text escape high⟩ state) : Tracks after (state.next letter) := by
  obtain ⟨depth, strings⟩ := tracks
  cases escape with
  | none =>
    obtain ⟨inside, plain⟩ := Prod.mk.inj strings
    have here : state.next letter = if letter = 92 then { state with escaped := true }
        else if letter = 34 then { state with inString := false } else state := by
      rw [Brackets.next, inside, plain]
      rfl
    rw [inString] at reads
    split_ifs at reads with quote backslash control
    · rw [here, if_neg (by rw [quote]; decide), if_pos quote]
      cases isKey with
      | true =>
        rcases stack with - | ⟨items | ⟨members, key⟩, rest⟩ <;> cases reads
        exact ⟨depth, by rw [plain]; rfl⟩
      | false =>
        cases reads
        exact .deliver depth (by rw [plain])
    · cases reads
      rw [here, if_pos backslash]
      exact ⟨depth, by rw [inside]; rfl⟩
    · cases reads
      rw [here, if_neg backslash, if_neg quote]
      exact ⟨depth, strings⟩
  | backslash =>
    obtain ⟨inside, behind⟩ := Prod.mk.inj strings
    have here : state.next letter = { state with escaped := false } := by
      rw [Brackets.next, inside, behind]
      rfl
    rw [here]
    rw [inString] at reads
    split_ifs at reads with unicode
    · cases reads
      exact ⟨depth, by rw [inside]; rfl⟩
    · obtain ⟨code, -, rfl⟩ := Option.map_eq_some_iff.mp reads
      exact ⟨depth, by rw [inside]; rfl⟩
  | digits digits =>
    obtain ⟨inside, plain⟩ := Prod.mk.inj strings
    rw [inString] at reads
    dsimp only at reads
    split_ifs at reads with isDigit last
    all_goals
      have noBackslash : letter ≠ 92 := by rintro rfl; exact absurd isDigit (by decide)
      have noQuote : letter ≠ 34 := by rintro rfl; exact absurd isDigit (by decide)
      have same : state.next letter = state := by
        rw [Brackets.next, inside, plain]
        exact (if_neg noBackslash).trans (if_neg noQuote)
      cases reads
      rw [same]
    · refine ⟨depth, strings.trans ?_⟩
      rw [endDigits]
      split_ifs <;> rfl
    · exact ⟨depth, strings⟩

/-- **The counter follows the machine.** -/
theorem step_tracks (reads : scan.step constants letter = some after) (tracks : Tracks scan state) :
    Tracks after (state.next letter) := by
  obtain ⟨stack, mode⟩ := scan
  cases mode with
  | string isKey text escape high => exact inString_tracks reads tracks
  | word text =>
    have outside := tracks.strings
    rw [step] at reads
    dsimp only at reads
    split_ifs at reads with inside
    · cases reads
      rw [next_plain (Prod.mk.inj outside).1 (inWord_plain inside)]
      exact ⟨tracks.depth, outside⟩
    · obtain ⟨value, -, reads⟩ := Option.bind_eq_some_iff.mp reads
      exact between_tracks reads (.deliver tracks.depth outside) (deliver_flags value stack)
  | value orEnd | key orEnd | colon | after | done value => exact between_tracks reads tracks rfl

theorem run_tracks {text : List CodePoint} (reads : scan.run constants text = some after)
    (tracks : Tracks scan state) : Tracks after (text.foldl Brackets.next state) := by
  induction text generalizing scan state with
  | nil =>
    cases reads
    exact tracks
  | cons letter rest ih =>
    obtain ⟨next, here, later⟩ := Option.bind_eq_some_iff.mp reads
    exact ih later (step_tracks here tracks)

theorem start_tracks : Tracks start {} := ⟨rfl, rfl⟩

end Tracks

/-! ### When the stack is empty -/

/-- The stack is empty exactly when the value is complete. -/
def Settled (scan : Scan) : Prop := scan.stack = [] ↔ ∃ value, scan.mode = .done value

section Settled

variable {constants : Bool} {scan after : Scan} {letter : CodePoint} {stack : List Container}

theorem settled_deliver (value : Json) (stack : List Container) : Settled (deliver value stack) := by
  cases stack with
  | nil => exact ⟨fun _ => ⟨value, rfl⟩, fun _ => rfl⟩
  | cons container rest =>
    cases container <;> exact ⟨fun empty => absurd empty (by simp [deliver]), fun ⟨_, done⟩ =>
      by cases done⟩

/-- A stack that is not empty, and a value that is not complete. -/
theorem settled_of_open (isOpen : scan.stack ≠ []) (unfinished : ∀ value, scan.mode ≠ .done value) :
    Settled scan :=
  ⟨fun empty => absurd empty isOpen, fun ⟨value, done⟩ => absurd done (unfinished value)⟩

theorem settled_close (closes : close letter stack = some after) : Settled after := by
  rcases stack with - | ⟨items | ⟨members, key⟩, rest⟩
  · cases closes
  all_goals
    rw [close] at closes
    split_ifs at closes
    cases closes
    exact settled_deliver _ rest

theorem settled_openValue (isOpen : stack ≠ []) (opens : openValue stack letter = some after) :
    Settled after := by
  rw [openValue] at opens
  split_ifs at opens <;> cases opens <;> refine settled_of_open ?_ (fun _ => Mode.noConfusion)
  · exact isOpen
  · exact List.cons_ne_nil _ _
  · exact List.cons_ne_nil _ _
  · exact isOpen

theorem settled_token (reads : scan.token letter = some after) (settled : Settled scan) :
    Settled after := by
  obtain ⟨stack, mode⟩ := scan
  have isOpen (unfinished : ∀ value, mode ≠ .done value) : stack ≠ [] := by
    intro empty
    obtain ⟨value, done⟩ := settled.mp empty
    exact unfinished value done
  cases mode with
  | value orEnd =>
    rcases Option.or_eq_some_iff.mp reads with opens | ⟨-, closes⟩
    · exact settled_openValue (isOpen fun _ => Mode.noConfusion) opens
    · cases orEnd with
      | true => exact settled_close closes
      | false => cases closes
  | key orEnd =>
    rw [token] at reads
    dsimp only at reads
    split_ifs at reads
    · cases reads
      exact settled_of_open (isOpen fun _ => Mode.noConfusion) (fun _ => Mode.noConfusion)
    · exact settled_close reads
  | colon =>
    rw [token] at reads
    dsimp only at reads
    split_ifs at reads
    cases reads
    exact settled_of_open (isOpen fun _ => Mode.noConfusion) (fun _ => Mode.noConfusion)
  | after =>
    rw [token] at reads
    dsimp only at reads
    split_ifs at reads
    · rcases stack with - | ⟨items | ⟨members, key⟩, rest⟩ <;> cases reads <;>
        exact settled_of_open (List.cons_ne_nil _ _) (fun _ => Mode.noConfusion)
    · exact settled_close reads
  | done value => cases reads
  | string isKey text escape high => cases reads
  | word text => cases reads

theorem settled_between (reads : scan.between letter = some after) (settled : Settled scan) :
    Settled after := by
  rw [between] at reads
  split_ifs at reads
  · cases reads
    exact settled
  · exact settled_token reads settled

theorem settled_inString {isKey high : Bool} {text : List CodePoint} {escape : Escape} (isOpen : stack ≠ [])
    (reads : inString stack isKey text escape high letter = some after) : Settled after := by
  cases escape with
  | none =>
    rw [inString] at reads
    split_ifs at reads
    · cases isKey with
      | true =>
        rcases stack with - | ⟨items | ⟨members, key⟩, rest⟩ <;> cases reads
        exact settled_of_open (List.cons_ne_nil _ _) (fun _ => Mode.noConfusion)
      | false =>
        cases reads
        exact settled_deliver _ stack
    · cases reads
      exact settled_of_open isOpen (fun _ => Mode.noConfusion)
    · cases reads
      exact settled_of_open isOpen (fun _ => Mode.noConfusion)
  | backslash =>
    rw [inString] at reads
    split_ifs at reads
    · cases reads
      exact settled_of_open isOpen (fun _ => Mode.noConfusion)
    · obtain ⟨code, -, rfl⟩ := Option.map_eq_some_iff.mp reads
      exact settled_of_open isOpen (fun _ => Mode.noConfusion)
  | digits digits =>
    rw [inString] at reads
    dsimp only at reads
    split_ifs at reads
    · cases reads
      refine settled_of_open isOpen fun value same => ?_
      dsimp only at same
      rw [endDigits] at same
      split_ifs at same
    · cases reads
      exact settled_of_open isOpen (fun _ => Mode.noConfusion)

theorem settled_step (reads : scan.step constants letter = some after) (settled : Settled scan) :
    Settled after := by
  obtain ⟨stack, mode⟩ := scan
  cases mode with
  | string isKey text escape high =>
    refine settled_inString (fun empty => ?_) reads
    obtain ⟨value, done⟩ := settled.mp empty
    cases done
  | word text =>
    rw [step] at reads
    dsimp only at reads
    split_ifs at reads
    · cases reads
      refine settled_of_open (fun empty => ?_) (fun _ => Mode.noConfusion)
      obtain ⟨value, done⟩ := settled.mp empty
      cases done
    · obtain ⟨value, -, reads⟩ := Option.bind_eq_some_iff.mp reads
      exact settled_between reads (settled_deliver value stack)
  | value orEnd | key orEnd | colon | after | done value => exact settled_between reads settled

theorem settled_run {text : List CodePoint} (reads : scan.run constants text = some after)
    (settled : Settled scan) : Settled after := by
  induction text generalizing scan with
  | nil =>
    cases reads
    exact settled
  | cons letter rest ih =>
    obtain ⟨next, here, later⟩ := Option.bind_eq_some_iff.mp reads
    exact ih later (settled_step here settled)

end Settled

/-! ### Line endings -/

section LineEndings

variable {constants : Bool} {scan after : Scan}

/-- A carriage return is read as a line feed is, and a line feed behind it does nothing. -/
theorem step_lineFeed (reads : scan.step constants 13 = some after) :
    scan.step constants 10 = some after ∧ after.step constants 10 = some after := by
  refine ⟨?_, (step_cr reads 10).trans rfl⟩
  obtain ⟨stack, mode⟩ := scan
  cases mode with
  | string isKey text escape high => cases escape <;> cases reads
  | word _ | value _ | key _ | colon | after | done _ => exact reads

theorem normalizeLines_cons (letter : CodePoint) (rest : List CodePoint) :
    normalizeLines 13 10 (letter :: rest) = if letter = 13 then
      10 :: normalizeLines 13 10 (if rest.head? = some 10 then rest.tail else rest)
    else letter :: normalizeLines 13 10 rest := by
  cases rest with
  | nil =>
    show [if letter = 13 then 10 else letter] = _
    by_cases isCr : letter = 13
    · rw [if_pos isCr, if_pos isCr]
      rfl
    · rw [if_neg isCr, if_neg isCr]
      rfl
  | cons second later =>
    rw [normalizeLines, replaceCrLf]
    by_cases isCr : letter = 13
    · subst isCr
      by_cases isLf : second = 10
      · subst isLf
        rfl
      · rw [if_neg fun both => isLf both.2, if_pos rfl, if_neg (by simpa using isLf)]
        rfl
    · rw [if_neg fun both => isCr both.1, if_neg isCr]
      exact congrArg (fun first => first :: normalizeLines 13 10 (second :: later)) (if_neg isCr)

/-- **One form for all line endings** does not change what a text says. -/
theorem run_normalizeLines : (text : List CodePoint) → {scan : Scan} → scan.run constants text
    = some after →
    scan.run constants (normalizeLines 13 10 text) = some after
  | [], _, reads => reads
  | letter :: rest, scan, reads => by
    obtain ⟨next, here, later⟩ := Option.bind_eq_some_iff.mp reads
    rw [normalizeLines_cons]
    split_ifs with isCr isLf
    · subst isCr
      obtain ⟨same, idle⟩ := step_lineFeed here
      rw [run_cons, same]
      cases rest with
      | nil => cases isLf
      | cons second more =>
        have lineFeed : second = 10 := Option.some.inj isLf
        subst lineFeed
        rw [← run, run_cons, idle] at later
        exact run_normalizeLines more later
    · subst isCr
      rw [run_cons, (step_lineFeed here).1]
      exact run_normalizeLines rest later
    · rw [run_cons, here]
      exact run_normalizeLines rest later

/-- Two texts in one form, unless a line ending stands in both. -/
theorem normalizeLines_append (second : List CodePoint) : (first : List CodePoint) →
    first.getLast? ≠ some 13 ∨ second.head? ≠ some 10 →
    normalizeLines 13 10 (first ++ second) = normalizeLines 13 10 first ++ normalizeLines 13 10 second
  | [], _ => rfl
  | [letter], apart => by
    have alone : normalizeLines 13 10 ([letter] ++ second) = if letter = 13 then
        10 :: normalizeLines 13 10 (if second.head? = some 10 then second.tail else second)
      else letter :: normalizeLines 13 10 second := normalizeLines_cons letter second
    rw [alone, normalizeLines_cons]
    by_cases isCr : letter = 13
    · have noLf : second.head? ≠ some 10 := apart.resolve_left fun no => no (by rw [isCr]; rfl)
      rw [if_pos isCr, if_pos isCr, if_neg noLf]
      rfl
    · rw [if_neg isCr, if_neg isCr]
      rfl
  | letter :: next :: rest, apart => by
    have last : (letter :: next :: rest).getLast? = (next :: rest).getLast? := List.getLast?_cons_cons
    rw [last] at apart
    have all := normalizeLines_append second (next :: rest) apart
    rw [List.cons_append, normalizeLines_cons, normalizeLines_cons letter (next :: rest)]
    by_cases isCr : letter = 13
    · rw [if_pos isCr, if_pos isCr]
      by_cases isLf : next = 10
      · have short : rest.getLast? ≠ some 13 ∨ second.head? ≠ some 10 := by
          refine apart.imp_left fun no same => no ?_
          rw [List.getLast?_cons, same]
          rfl
        subst isLf
        exact congrArg (fun later => 10 :: later) (normalizeLines_append second rest short)
      · have noLf : (next :: rest).head? ≠ some 10 := fun same => isLf (Option.some.inj same)
        have noLf' : (next :: rest ++ second).head? ≠ some 10 := noLf
        rw [if_neg noLf, if_neg noLf', all]
        rfl
    · rw [if_neg isCr, if_neg isCr, all]
      rfl

/-- White space stays white space. -/
theorem normalizeLines_spaces : (spaces : List CodePoint) → spaces.all isSpace = true →
    (normalizeLines 13 10 spaces).all isSpace = true
  | [], _ => rfl
  | letter :: rest, all => by
    rw [List.all_cons, Bool.and_eq_true] at all
    rw [normalizeLines_cons]
    split_ifs with isCr isLf
    · cases rest with
      | nil => cases isLf
      | cons second more =>
        rw [List.all_cons, Bool.and_eq_true] at all
        exact normalizeLines_spaces more all.2.2
    · exact normalizeLines_spaces rest all.2
    · rw [List.all_cons, all.1]
      exact normalizeLines_spaces rest all.2

end LineEndings

/-! ### The text of an object -/

/-- The text of an object, from its first brace to its last. -/
structure IsObjectText (text : List CodePoint) : Prop where
  decodes : ∃ members, decode false text = some (.object members)
  first : text.head? = some 123
  last : text.getLast? = some 125

namespace IsObjectText

variable {text done todo : List CodePoint}

/-- What the machine and the counter are at, somewhere in the text. -/
theorem reached (isText : IsObjectText (done ++ todo)) (begun : done ≠ []) : ∃ scan after members,
    start.run false done = some scan ∧ Tracks scan (bracketsOf done) ∧ Settled scan ∧
      scan.run false todo = some after ∧ after.mode = .done (.object members) := by
  obtain ⟨members, decodes⟩ := isText.decodes
  obtain ⟨after, reads, meaning⟩ := Option.bind_eq_some_iff.mp decodes
  rw [run_append] at reads
  obtain ⟨scan, here, later⟩ := Option.bind_eq_some_iff.mp reads
  refine ⟨scan, after, members, here, run_tracks here start_tracks, ?_, later, done_of_object meaning⟩
  cases done with
  | nil => exact absurd rfl begun
  | cons letter rest =>
    have brace : letter = 123 := Option.some.inj isText.first
    subst brace
    exact @settled_run false ⟨[.object [] []], .key true⟩ _ _ here
      (settled_of_open (List.cons_ne_nil _ _) (fun _ => Mode.noConfusion))

/-- **Inside of an object** a bracket is open. -/
theorem isOpen (isText : IsObjectText (done ++ todo)) (begun : done ≠ []) (unfinished : todo ≠ []) :
    0 < (bracketsOf done).depth := by
  obtain ⟨⟨stack, mode⟩, after, members, -, tracks, settled, later, -⟩ := isText.reached begun
  rw [tracks.depth]
  rcases stack with - | ⟨container, rest⟩
  · obtain ⟨value, isDone⟩ := settled.mp rfl
    dsimp only at isDone
    subst isDone
    have spaces := @spaces_of_done false value [] todo
      (by rw [later]; exact Option.some_ne_none _)
    have last : todo.getLast? = some 125 := by
      rw [← isText.last, List.getLast?_append, List.getLast?_eq_some_getLast unfinished]
      rfl
    have space := List.all_eq_true.mp spaces 125 (List.mem_of_getLast? last)
    exact absurd space (by decide)
  · exact Int.natCast_pos.mpr (Nat.succ_pos _)

/-- **Behind an object** no bracket is open. -/
theorem closed (isText : IsObjectText text) : (bracketsOf text).depth = 0 := by
  have begun : text ≠ [] := by
    rintro rfl
    cases isText.first
  obtain ⟨⟨stack, mode⟩, after, members, -, tracks, settled, later, finished⟩ :=
    @reached text [] (by rw [List.append_nil]; exact isText) begun
  cases later
  have empty : stack = [] := settled.mpr ⟨_, finished⟩
  rw [tracks.depth, empty]
  rfl

/-- **A line break inside of an object** changes nothing. -/
theorem lineBreak (isText : IsObjectText (done ++ 10 :: todo)) (begun : done ≠ []) :
    bracketsOf (done ++ [10]) = bracketsOf done := by
  obtain ⟨⟨stack, mode⟩, after, members, -, tracks, -, later, -⟩ := isText.reached begun
  obtain ⟨next, here, -⟩ := Option.bind_eq_some_iff.mp later
  have outside : flags mode = (false, false) := by
    cases mode with
    | string isKey text escape high => cases escape <;> cases here
    | word _ | value _ | key _ | colon | after | done _ => rfl
  rw [bracketsOf_concat]
  exact next_plain (Prod.mk.inj (tracks.strings.trans outside)).1 (by decide)

theorem normalize (isText : IsObjectText text) : IsObjectText (normalizeLines 13 10 text) := by
  obtain ⟨members, decodes⟩ := isText.decodes
  obtain ⟨after, reads, meaning⟩ := Option.bind_eq_some_iff.mp decodes
  refine ⟨⟨members, Option.bind_eq_some_iff.mpr ⟨after, run_normalizeLines text reads, meaning⟩⟩, ?_, ?_⟩
  · cases text with
    | nil => cases isText.first
    | cons letter rest =>
      have brace : letter = 123 := Option.some.inj isText.first
      rw [normalizeLines_cons, brace]
      rfl
  · obtain ⟨front, rfl⟩ := List.getLast?_eq_some_iff.mp isText.last
    rw [normalizeLines_append [125] front (.inr (by decide)), List.getLast?_append]
    rfl

end IsObjectText

end UniApi.Lib.Json
