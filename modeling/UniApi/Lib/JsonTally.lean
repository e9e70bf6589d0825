/-
**The tokens of a JSON text.**

What counts the tokens and the nesting of a text knows less of it than the decoder does: it skips
strings, and starts a word at each letter that is no bracket and no separator.

* `Json.tokens`, `Json.depth`: how many keys, strings, other scalars and containers a value has,
  and how deep they are;
* `Tally`, `Tally.next`: the counter, letter by letter;
* `step_follows`: the counter beside the machine of the decoder;
* `tally_decoded`: behind a JSON text the counter has the numbers of its value.
-/

import UniApi.Lib.JsonText

namespace UniApi.Lib.Json

open Scan

/-! ### Values -/

mutual

/-- The strings, the other scalars, the containers and the keys of a value. -/
def tokens : Json → ℕ
  | .array items => 1 + tokensItems items
  | .object members => 1 + tokensMembers members
  | _ => 1

def tokensItems : List Json → ℕ
  | [] => 0
  | item :: rest => item.tokens + tokensItems rest

def tokensMembers : List (List CodePoint × Json) → ℕ
  | [] => 0
  | (_, value) :: rest => 1 + value.tokens + tokensMembers rest

end

mutual

/-- How deep the containers of a value are nested. -/
def depth : Json → ℕ
  | .array items => 1 + depthItems items
  | .object members => 1 + depthMembers members
  | _ => 0

def depthItems : List Json → ℕ
  | [] => 0
  | item :: rest => max item.depth (depthItems rest)

def depthMembers : List (List CodePoint × Json) → ℕ
  | [] => 0
  | (_, value) :: rest => max value.depth (depthMembers rest)

end

theorem tokensItems_concat (items : List Json) (value : Json) :
    tokensItems (items ++ [value]) = tokensItems items + value.tokens := by
  induction items with
  | nil => rw [List.nil_append, tokensItems, tokensItems, tokensItems, Nat.add_comm]
  | cons item rest ih => rw [List.cons_append, tokensItems, tokensItems, ih, Nat.add_assoc]

theorem tokensMembers_concat (members : List (List CodePoint × Json)) (key : List CodePoint)
    (value : Json) :
    tokensMembers (members ++ [(key, value)]) = tokensMembers members + (1 + value.tokens) := by
  induction members with
  | nil => rw [List.nil_append, tokensMembers, tokensMembers, tokensMembers, Nat.zero_add,
    Nat.add_zero]
  | cons member rest ih =>
    rw [List.cons_append, tokensMembers, tokensMembers, ih]
    omega

theorem depthItems_concat (items : List Json) (value : Json) :
    depthItems (items ++ [value]) = max (depthItems items) value.depth := by
  induction items with
  | nil => rw [List.nil_append, depthItems, depthItems, depthItems, Nat.max_comm]
  | cons item rest ih =>
    rw [List.cons_append, depthItems, depthItems, ih]
    omega

theorem depthMembers_concat (members : List (List CodePoint × Json)) (key : List CodePoint)
    (value : Json) :
    depthMembers (members ++ [(key, value)]) = max (depthMembers members) value.depth := by
  induction members with
  | nil => rw [List.nil_append, depthMembers, depthMembers, depthMembers, Nat.max_comm]
  | cons member rest ih =>
    rw [List.cons_append, depthMembers, depthMembers, ih]
    omega

variable {stack : List Container} {text : List CodePoint}

theorem wordValue_scalar {constants : Bool} {value : Json}
    (meaning : wordValue constants text = some value) : value.tokens = 1 ∧ value.depth = 0 := by
  unfold wordValue at meaning
  split_ifs at meaning
  all_goals
    cases meaning
    exact ⟨rfl, rfl⟩

/-! ### Containers that are open -/

/-- The tokens of a container so far, without a key whose value comes next. -/
def Container.tokens : Container → ℕ
  | .array items => 1 + tokensItems items
  | .object members _ => 1 + tokensMembers members

/-- A key whose value comes next. -/
def Container.keys : Container → ℕ
  | .array _ => 0
  | .object _ _ => 1

/-- How deep the members of a container are so far. -/
def Container.inner : Container → ℕ
  | .array items => depthItems items
  | .object members _ => depthMembers members

/-- The tokens of the open containers, where each object waits for a value. -/
def openTokens : List Container → ℕ
  | [] => 0
  | container :: rest => container.tokens + container.keys + openTokens rest

/-- The tokens of the open containers, where the innermost has no key that waits. -/
def settledTokens : List Container → ℕ
  | [] => 0
  | container :: rest => container.tokens + openTokens rest

/-- How deep the text has been so far. -/
def peakOf : List Container → ℕ
  | [] => 0
  | container :: rest => max (rest.length + 1 + container.inner) (peakOf rest)

theorem length_le_peakOf (stack : List Container) : stack.length ≤ peakOf stack := by
  cases stack with
  | nil => exact Nat.le_refl 0
  | cons container rest => exact Nat.le_trans (Nat.le_add_right _ _) (Nat.le_max_left _ _)

/-- The tokens that have begun. -/
def begun (scan : Scan) : ℕ :=
  match scan.mode with
  | .key _ | .after => settledTokens scan.stack
  | .value _ | .colon | .string true _ _ _ => openTokens scan.stack
  | .string false _ _ _ | .word _ => openTokens scan.stack + 1
  | .done value => openTokens scan.stack + value.tokens

/-- How deep the text has been. -/
def peak (scan : Scan) : ℕ :=
  match scan.mode with
  | .done value => max (peakOf scan.stack) (scan.stack.length + value.depth)
  | _ => peakOf scan.stack

/-- The containers fit the mode. -/
def Shaped (scan : Scan) : Prop :=
  match scan.mode with
  | .value true => ∃ items rest, scan.stack = .array items :: rest
  | .key _ | .string true _ _ _ => ∃ members key rest, scan.stack = .object members key :: rest
  | .done _ => scan.stack = []
  | _ => True

theorem shaped_deliver (value : Json) (stack : List Container) : Shaped (deliver value stack) := by
  rcases stack with _ | ⟨items | ⟨members, key⟩, rest⟩
  · exact rfl
  · exact trivial
  · exact trivial

/-- A value that is complete counts with its tokens. -/
theorem begun_deliver (value : Json) (stack : List Container) :
    begun (deliver value stack) = openTokens stack + value.tokens := by
  rcases stack with _ | ⟨items | ⟨members, key⟩, rest⟩
  · rfl
  · show 1 + tokensItems (items ++ [value]) + openTokens rest =
      1 + tokensItems items + 0 + openTokens rest + value.tokens
    rw [tokensItems_concat]
    omega
  · show 1 + tokensMembers (members ++ [(key, value)]) + openTokens rest =
      1 + tokensMembers members + 1 + openTokens rest + value.tokens
    rw [tokensMembers_concat]
    omega

theorem peak_deliver (value : Json) (stack : List Container) :
    peak (deliver value stack) = max (peakOf stack) (stack.length + value.depth) := by
  rcases stack with _ | ⟨items | ⟨members, key⟩, rest⟩
  · rfl
  · show max (rest.length + 1 + depthItems (items ++ [value])) (peakOf rest) =
      max (max (rest.length + 1 + depthItems items) (peakOf rest)) (rest.length + 1 + value.depth)
    rw [depthItems_concat]
    omega
  · show max (rest.length + 1 + depthMembers (members ++ [(key, value)])) (peakOf rest) =
      max (max (rest.length + 1 + depthMembers members) (peakOf rest))
        (rest.length + 1 + value.depth)
    rw [depthMembers_concat]
    omega

/-! ### The counter -/

/-- What has been counted, and whether the text is in a string, behind a backslash, or in a word. -/
structure Tally where
  tokens : ℕ := 0
  depth : ℕ := 0
  peak : ℕ := 0
  inString : Bool := false
  escaped : Bool := false
  inWord : Bool := false

/-- One letter. -/
def Tally.next (tally : Tally) (letter : CodePoint) : Tally :=
  if tally.inString then
    if tally.escaped then { tally with escaped := false }
    else if letter = 92 then { tally with escaped := true }
    else if letter = 34 then { tally with inString := false }
    else tally
  else if letter = 34 then { tally with tokens := tally.tokens + 1, inString := true, inWord :=
    false }
  else if letter = 123 ∨ letter = 91 then
    { tally with
      tokens := tally.tokens + 1
      depth := tally.depth + 1
      peak := max tally.peak (tally.depth + 1)
      inWord := false }
  else if letter = 125 ∨ letter = 93 then { tally with depth := tally.depth - 1, inWord := false }
  else if isSpace letter ∨ letter = 44 ∨ letter = 58 then { tally with inWord := false }
  else if tally.inWord then tally
  else { tally with tokens := tally.tokens + 1, inWord := true }

/-- Whether a mode is in a string, behind a backslash, or in a word. -/
def places : Mode → Bool × Bool × Bool
  | .string _ _ .backslash _ => (true, true, false)
  | .string _ _ _ _ => (true, false, false)
  | .word _ => (false, false, true)
  | _ => (false, false, false)

/-- **The counter follows the machine.** -/
structure Follows (scan : Scan) (tally : Tally) : Prop where
  shaped : Shaped scan
  tokens : tally.tokens = begun scan
  depth : tally.depth = scan.stack.length
  peak : tally.peak = peak scan
  places : (tally.inString, tally.escaped, tally.inWord) = places scan.mode

section Follows

variable {constants : Bool} {scan after : Scan} {tally : Tally} {letter : CodePoint}

theorem deliver_stack_length (value : Json) (stack : List Container) :
    (deliver value stack).stack.length = stack.length := by
  rcases stack with _ | ⟨_ | _, _⟩ <;> rfl

theorem deliver_places (value : Json) (stack : List Container) :
    Json.places (deliver value stack).mode = (false, false, false) := by
  rcases stack with _ | ⟨_ | _, _⟩ <;> rfl

/-- A value is complete. -/
theorem follows_deliver {value : Json}
    (tokens : tally.tokens = openTokens stack + value.tokens) (depth : tally.depth = stack.length)
    (peak : tally.peak = max (peakOf stack) (stack.length + value.depth))
    (places : (tally.inString, tally.escaped, tally.inWord) = (false, false, false)) :
    Follows (deliver value stack) tally :=
  ⟨shaped_deliver value stack, tokens.trans (begun_deliver value stack).symm,
    depth.trans (deliver_stack_length value stack).symm, peak.trans (peak_deliver value stack).symm,
    places.trans (deliver_places value stack).symm⟩

theorem tally_outside (outside : tally.inString = false) : tally.next letter =
    if letter = 34 then { tally with tokens := tally.tokens + 1, inString := true, inWord := false }
    else if letter = 123 ∨ letter = 91 then
      { tally with
        tokens := tally.tokens + 1
        depth := tally.depth + 1
        peak := max tally.peak (tally.depth + 1)
        inWord := false }
    else if letter = 125 ∨ letter = 93 then { tally with depth := tally.depth - 1, inWord := false }
    else if isSpace letter ∨ letter = 44 ∨ letter = 58 then { tally with inWord := false }
    else if tally.inWord then tally
    else { tally with tokens := tally.tokens + 1, inWord := true } := by
  rw [Tally.next, outside]
  rfl

/-- A bracket that closes the innermost container, which has no key that waits. -/
theorem close_follows (closes : close letter stack = some after)
    (tokens : tally.tokens = settledTokens stack) (depth : tally.depth = stack.length)
    (peak : tally.peak = peakOf stack) (outside : tally.inString = false)
    (bare : tally.escaped = false) : Follows after (tally.next letter) := by
  rcases stack with _ | ⟨container, rest⟩
  · cases closes
  rw [List.length_cons] at depth
  have isEnd : letter = 125 ∨ letter = 93 := by
    cases container with
    | array items =>
      rw [close] at closes
      split_ifs at closes with here
      exact .inr here
    | object members key =>
      rw [close] at closes
      split_ifs at closes with here
      exact .inl here
  have sameNext : tally.next letter = { tally with depth := tally.depth - 1, inWord := false } := by
    rw [tally_outside outside, if_neg (by rcases isEnd with rfl | rfl <;> decide),
      if_neg (by rcases isEnd with rfl | rfl <;> decide), if_pos isEnd]
  rw [sameNext]
  cases container with
  | array items =>
    rw [close] at closes
    split_ifs at closes
    cases closes
    refine follows_deliver (tokens.trans (Nat.add_comm _ _)) ?_ (peak.trans ?_) ?_
    · show tally.depth - 1 = rest.length
      omega
    · show max (rest.length + 1 + depthItems items) (peakOf rest) = max (peakOf rest)
        (rest.length + (1 + depthItems items))
      omega
    · rw [outside, bare]
  | object members key =>
    rw [close] at closes
    split_ifs at closes
    cases closes
    refine follows_deliver (tokens.trans (Nat.add_comm _ _)) ?_ (peak.trans ?_) ?_
    · show tally.depth - 1 = rest.length
      omega
    · show max (rest.length + 1 + depthMembers members) (peakOf rest) =
        max (peakOf rest) (rest.length + (1 + depthMembers members))
      omega
    · rw [outside, bare]

theorem next_separator (outside : tally.inString = false)
    (separates : isSpace letter = true ∨ letter = 44 ∨ letter = 58) :
    tally.next letter = { tally with inWord := false } := by
  have plain : letter ≠ 34 ∧ ¬ (letter = 123 ∨ letter = 91) ∧ ¬ (letter = 125 ∨ letter = 93) := by
    rcases separates with space | rfl | rfl
    · have cases : letter = 32 ∨ letter = 9 ∨ letter = 10 ∨ letter = 13 := by
        simpa [isSpace, or_assoc] using space
      rcases cases with rfl | rfl | rfl | rfl <;> decide
    · decide
    · decide
  rw [tally_outside outside, if_neg plain.1, if_neg plain.2.1, if_neg plain.2.2, if_pos separates]

theorem next_letter (outside : tally.inString = false) (inside : inWord letter = true) :
    tally.next letter =
      if tally.inWord then tally
      else { tally with tokens := tally.tokens + 1, inWord := true } := by
  have plain : letter ≠ 34 ∧ ¬ (letter = 123 ∨ letter = 91) ∧ ¬ (letter = 125 ∨ letter = 93) ∧
      ¬ (isSpace letter = true ∨ letter = 44 ∨ letter = 58) := by
    refine ⟨?_, ?_, ?_, ?_⟩
    · rintro rfl
      exact absurd inside (by decide)
    · rintro (rfl | rfl) <;> exact absurd inside (by decide)
    · rintro (rfl | rfl) <;> exact absurd inside (by decide)
    · rintro (space | rfl | rfl)
      · have cases : letter = 32 ∨ letter = 9 ∨ letter = 10 ∨ letter = 13 := by
          simpa [isSpace, or_assoc] using space
        rcases cases with rfl | rfl | rfl | rfl <;> exact absurd inside (by decide)
      · exact absurd inside (by decide)
      · exact absurd inside (by decide)
  rw [tally_outside outside, if_neg plain.1, if_neg plain.2.1, if_neg plain.2.2.1, if_neg
    plain.2.2.2]

theorem inWord_of_starts (starts : startsWord letter = true) : inWord letter = true := by
  simp only [startsWord, Bool.or_eq_true, beq_iff_eq] at starts
  rcases starts with (((((rfl | digit) | rfl) | rfl) | rfl) | rfl) | rfl
  all_goals first | decide | simp [inWord, digit]

/-- The first letter of a value. -/
theorem openValue_follows (opens : openValue stack letter = some after)
    (tokens : tally.tokens = openTokens stack) (depth : tally.depth = stack.length)
    (peak : tally.peak = peakOf stack)
    (places : (tally.inString, tally.escaped, tally.inWord) = (false, false, false)) :
    Follows after (tally.next letter) := by
  obtain ⟨outside, bare, noWord⟩ :
      tally.inString = false ∧ tally.escaped = false ∧ tally.inWord = false := by
    simpa using places
  rw [openValue] at opens
  split_ifs at opens with quote bracket brace starts
  · cases opens
    rw [tally_outside outside, if_pos quote]
    exact ⟨trivial, congrArg (· + 1) tokens, depth, peak, by rw [bare]; rfl⟩
  · cases opens
    rw [tally_outside outside, if_neg quote, if_pos (.inr bracket)]
    refine ⟨⟨[], stack, rfl⟩, ?_, congrArg (· + 1) depth, ?_, by rw [outside, bare]; rfl⟩
    · show tally.tokens + 1 = 1 + 0 + 0 + openTokens stack
      omega
    · show max tally.peak (tally.depth + 1) = max (stack.length + 1 + 0) (peakOf stack)
      omega
  · cases opens
    rw [tally_outside outside, if_neg quote, if_pos (.inl brace)]
    refine ⟨⟨[], [], stack, rfl⟩, ?_, congrArg (· + 1) depth, ?_, by rw [outside, bare]; rfl⟩
    · show tally.tokens + 1 = 1 + 0 + openTokens stack
      omega
    · show max tally.peak (tally.depth + 1) = max (stack.length + 1 + 0) (peakOf stack)
      omega
  · cases opens
    rw [next_letter outside (inWord_of_starts starts), noWord]
    exact ⟨trivial, congrArg (· + 1) tokens, depth, peak, by rw [outside, bare]; rfl⟩

/-- A letter outside strings and words that is no white space. -/
theorem token_follows (reads : scan.token letter = some after) (follows : Follows scan tally)
    (outside : Json.places scan.mode = (false, false, false)) : Follows after
      (tally.next letter) := by
  obtain ⟨stack, mode⟩ := scan
  obtain ⟨shaped, tokens, depth, peak, places⟩ := follows
  have here := places.trans outside
  obtain ⟨noString, bare, noWord⟩ :
      tally.inString = false ∧ tally.escaped = false ∧ tally.inWord = false := by
    simpa using here
  cases mode with
  | value orEnd =>
    rcases Option.or_eq_some_iff.mp reads with opens | ⟨-, closes⟩
    · exact openValue_follows opens tokens depth peak here
    · cases orEnd with
      | false => cases closes
      | true =>
        obtain ⟨items, rest, rfl⟩ := shaped
        have ends : close letter (.array items :: rest) = some after := closes
        exact close_follows ends tokens depth peak noString bare
  | key orEnd =>
    obtain ⟨members, key, rest, rfl⟩ := shaped
    rw [token] at reads
    dsimp only at reads
    split_ifs at reads with quote
    · cases reads
      rw [tally_outside noString, if_pos quote]
      refine ⟨⟨members, key, rest, rfl⟩, ?_, depth, peak, by rw [bare]; rfl⟩
      have before : tally.tokens = 1 + tokensMembers members + openTokens rest := tokens
      show tally.tokens + 1 = 1 + tokensMembers members + 1 + openTokens rest
      omega
    · exact close_follows reads tokens depth peak noString bare
  | colon =>
    rw [token] at reads
    dsimp only at reads
    split_ifs at reads with colon
    cases reads
    rw [next_separator noString (.inr (.inr colon))]
    exact ⟨trivial, tokens, depth, peak, by rw [noString, bare]; rfl⟩
  | after =>
    rw [token] at reads
    dsimp only at reads
    split_ifs at reads with isComma
    · rw [next_separator noString (.inr (.inl isComma))]
      rcases stack with _ | ⟨items | ⟨members, key⟩, rest⟩
      · cases reads
      · cases reads
        exact ⟨trivial, tokens, depth, peak, by rw [noString, bare]; rfl⟩
      · cases reads
        exact ⟨⟨members, key, rest, rfl⟩, tokens, depth, peak, by rw [noString, bare]; rfl⟩
    · exact close_follows reads tokens depth peak noString bare
  | done value => cases reads
  | string isKey text escape high => cases reads
  | word text => cases reads

theorem between_follows (reads : scan.between letter = some after) (follows : Follows scan tally)
    (outside : Json.places scan.mode = (false, false, false)) : Follows after
      (tally.next letter) := by
  rw [between] at reads
  split_ifs at reads with space
  · cases reads
    have here := follows.places.trans outside
    obtain ⟨noString, bare, noWord⟩ : tally.inString = false ∧ tally.escaped = false ∧
        tally.inWord = false := by simpa using here
    rw [next_separator noString (.inl space)]
    refine ⟨follows.shaped, follows.tokens, follows.depth, follows.peak, ?_⟩
    rw [outside, noString, bare]
  · exact token_follows reads follows outside

/-- Behind a complete value there is white space, a comma, or the end of its container. -/
theorem between_deliver {value : Json}
    (reads : (deliver value stack).between letter = some after) :
    isSpace letter = true ∨ letter = 44 ∨ letter = 125 ∨ letter = 93 := by
  rw [between] at reads
  split_ifs at reads with space
  · exact .inl space
  refine .inr ?_
  rcases stack with _ | ⟨items | ⟨members, key⟩, rest⟩
  · cases reads
  all_goals
    rw [deliver, token] at reads
    dsimp only at reads
    split_ifs at reads with comma
    · exact .inl comma
    · rw [close] at reads
      split_ifs at reads with ends
      first | exact .inr (.inl ends) | exact .inr (.inr ends)

theorem next_ends (outside : tally.inString = false)
    (ends : isSpace letter = true ∨ letter = 44 ∨ letter = 125 ∨ letter = 93) :
    tally.next letter = ({ tally with inWord := false } : Tally).next letter := by
  rcases ends with space | rfl | ends
  · rw [next_separator outside (.inl space)]
    exact (@next_separator { tally with inWord := false } _ outside (.inl space)).symm
  · rw [next_separator outside (.inr (.inl rfl))]
    exact (@next_separator { tally with inWord := false } _ outside (.inr (.inl rfl))).symm
  · have other : ({ tally with inWord := false } : Tally).inString = false := outside
    rw [tally_outside outside, tally_outside other]
    rcases ends with rfl | rfl <;> rfl

/-- **A letter of a string.** -/
theorem inString_follows {isKey high : Bool}
    {escape : Escape} (reads : inString stack isKey text escape high letter = some after)
    (follows : Follows ⟨stack, .string isKey text escape high⟩ tally) : Follows after
      (tally.next letter) := by
  obtain ⟨shaped, tokens, depth, peak, places⟩ := follows
  -- the mode of a string counts the same, whatever has been read of it
  have still : ∀ {text' : List CodePoint} {escape' : Escape} {high' : Bool} {tally' : Tally},
      tally'.tokens = tally.tokens → tally'.depth = tally.depth → tally'.peak = tally.peak →
        (tally'.inString, tally'.escaped, tally'.inWord) = Json.places
          (.string isKey text' escape' high') →
          Follows ⟨stack, .string isKey text' escape' high'⟩ tally' := by
    intro text' escape' high' tally' sameTokens sameDepth samePeak there
    cases isKey with
    | true => exact ⟨shaped, sameTokens.trans tokens, sameDepth.trans depth, samePeak.trans peak,
      there⟩
    | false => exact ⟨trivial, sameTokens.trans tokens, sameDepth.trans depth, samePeak.trans
      peak, there⟩
  cases escape with
  | none =>
    obtain ⟨inside, bare, noWord⟩ :
        tally.inString = true ∧ tally.escaped = false ∧ tally.inWord = false := by
      simpa [Json.places] using places
    have here : tally.next letter = if letter = 92 then { tally with escaped := true }
        else if letter = 34 then { tally with inString := false } else tally := by
      rw [Tally.next, inside, bare]
      rfl
    rw [inString] at reads
    split_ifs at reads with quote backslash control
    · rw [here, if_neg (by rw [quote]; decide), if_pos quote]
      cases isKey with
      | true =>
        obtain ⟨members, key, rest, rfl⟩ := shaped
        cases reads
        exact ⟨trivial, tokens, depth, peak, by rw [bare, noWord]; rfl⟩
      | false =>
        cases reads
        refine follows_deliver tokens depth ?_ (by rw [bare, noWord])
        exact peak.trans (Nat.max_eq_left (length_le_peakOf stack)).symm
    · cases reads
      rw [here, if_pos backslash]
      exact still rfl rfl rfl (by rw [inside, noWord]; rfl)
    · cases reads
      rw [here, if_neg backslash, if_neg quote]
      exact still rfl rfl rfl (by rw [inside, bare, noWord]; rfl)
  | backslash =>
    obtain ⟨inside, behind, noWord⟩ :
        tally.inString = true ∧ tally.escaped = true ∧ tally.inWord = false := by
      simpa [Json.places] using places
    have here : tally.next letter = { tally with escaped := false } := by
      rw [Tally.next, inside, behind]
      rfl
    rw [here]
    rw [inString] at reads
    split_ifs at reads with unicode
    · cases reads
      exact still rfl rfl rfl (by rw [inside, noWord]; rfl)
    · obtain ⟨code, -, rfl⟩ := Option.map_eq_some_iff.mp reads
      exact still rfl rfl rfl (by rw [inside, noWord]; rfl)
  | digits digits =>
    obtain ⟨inside, bare, noWord⟩ :
        tally.inString = true ∧ tally.escaped = false ∧ tally.inWord = false := by
      simpa [Json.places] using places
    rw [inString] at reads
    dsimp only at reads
    split_ifs at reads with isDigit last
    all_goals
      have noBackslash : letter ≠ 92 := by rintro rfl; exact absurd isDigit (by decide)
      have noQuote : letter ≠ 34 := by rintro rfl; exact absurd isDigit (by decide)
      have same : tally.next letter = tally := by
        rw [Tally.next, inside, bare]
        exact (if_neg noBackslash).trans (if_neg noQuote)
      cases reads
      rw [same]
    · unfold endDigits
      split_ifs
      all_goals exact still rfl rfl rfl (by rw [inside, bare, noWord]; rfl)
    · exact still rfl rfl rfl (by rw [inside, bare, noWord]; rfl)

/-- **One letter**: the counter follows the machine. -/
theorem step_follows (reads : scan.step constants letter = some after) (follows : Follows scan
    tally) :
    Follows after (tally.next letter) := by
  obtain ⟨stack, mode⟩ := scan
  cases mode with
  | string isKey text escape high => exact inString_follows reads follows
  | word text =>
    obtain ⟨-, tokens, depth, peak, places⟩ := follows
    obtain ⟨outside, bare, word⟩ :
        tally.inString = false ∧ tally.escaped = false ∧ tally.inWord = true := by
      simpa [Json.places] using places
    rw [step] at reads
    dsimp only at reads
    split_ifs at reads with inside
    · cases reads
      rw [next_letter outside inside, if_pos word]
      exact ⟨trivial, tokens, depth, peak, places⟩
    · obtain ⟨value, meaning, reads⟩ := Option.bind_eq_some_iff.mp reads
      obtain ⟨oneToken, flat⟩ := wordValue_scalar meaning
      rw [next_ends outside (between_deliver reads)]
      refine between_follows reads (follows_deliver ?_ depth ?_ (by rw [outside, bare]))
        (deliver_places value stack)
      · rw [oneToken]
        exact tokens
      · rw [flat]
        exact peak.trans (Nat.max_eq_left (length_le_peakOf stack)).symm
  | value orEnd | key orEnd | colon | after | done value => exact between_follows reads follows rfl

theorem run_follows (reads : scan.run constants text = some after)
    (follows : Follows scan tally) : Follows after (text.foldl Tally.next tally) := by
  induction text generalizing scan tally with
  | nil =>
    cases reads
    exact follows
  | cons letter rest ih =>
    obtain ⟨next, here, later⟩ := Option.bind_eq_some_iff.mp reads
    exact ih later (step_follows here follows)

theorem start_follows : Follows start {} := ⟨trivial, rfl, rfl, rfl, rfl⟩

/-- **Behind a JSON text** the counter has the numbers of its value, and nothing is open. -/
theorem tally_decoded {value : Json} (decoded : decode constants text = some value) :
    (text.foldl Tally.next {}).tokens = value.tokens ∧
      (text.foldl Tally.next {}).peak = value.depth ∧
      (text.foldl Tally.next {}).depth = 0 ∧ (text.foldl Tally.next {}).inString = false := by
  obtain ⟨⟨stack, mode⟩, reads, isResult⟩ := Option.bind_eq_some_iff.mp decoded
  obtain ⟨shaped, tokens, depth, peak, places⟩ := run_follows reads start_follows
  have outside := (Prod.mk.inj places).1
  cases mode with
  | done found =>
    have empty : stack = [] := shaped
    subst empty
    have same : found = value := Option.some.inj isResult
    subst same
    refine ⟨tokens.trans (Nat.zero_add _), peak.trans ?_, depth, outside⟩
    show max 0 (0 + found.depth) = found.depth
    omega
  | word word =>
    rcases stack with _ | ⟨container, rest⟩
    · have meaning : wordValue constants word = some value := isResult
      obtain ⟨oneToken, flat⟩ := wordValue_scalar meaning
      exact ⟨tokens.trans oneToken.symm, peak.trans flat.symm, depth, outside⟩
    · cases isResult
  | value _ | key _ | colon | after | string _ _ _ _ =>
    rcases stack with _ | ⟨container, rest⟩ <;> cases isResult

end Follows

end UniApi.Lib.Json
