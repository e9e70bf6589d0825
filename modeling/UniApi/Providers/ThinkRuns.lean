/-
**Thinking tags in chunks: what a run of contents sends.**

A message with a thinking text between tags is cut into contents. The tags are found when each of
them lies in one content, and what is around them is sent part by part.

* `runs_front`, `runs_thinking`, `runs_behind`: what is sent before, between and behind the tags;
* `size_quoted`: a quote in front of the tags loses its beginning;
* `squeeze_append`, `keepsLines_iff`: blank lines that are taken out.
-/

import UniApi.Providers.ThinkTexts

namespace UniApi.Providers.OpenaiStream

open UniApi.Lib UniApi.Streaming

/-! ### Runs -/

/-- The flags behind a run. -/
def flagsAfter : Flags → List PyText → Flags
  | flags, [] => flags
  | flags, words :: rest => flagsAfter (separate flags words).1 rest

/-- **What a run of contents sends**, with the flags behind it. -/
structure Runs (flags : Flags) (texts : List PyText) (after : Flags)
    (reasoning content : PyText) : Prop where
  ends : flagsAfter flags texts = after
  sends : separateAll flags texts = (reasoning, content)

section Runs

variable {flags between after : Flags} {texts first second : List PyText}
  {words reasoning content : PyText}

theorem separateAll_cons (flags : Flags) (words : PyText) (rest : List PyText) :
    separateAll flags (words :: rest) =
      ((separate flags words).2.1 ++ (separateAll (separate flags words).1 rest).1,
        (separate flags words).2.2 ++ (separateAll (separate flags words).1 rest).2) := rfl

theorem Runs.self (flags : Flags) (texts : List PyText) :
    Runs flags texts (flagsAfter flags texts) (separateAll flags texts).1
      (separateAll flags texts).2 := ⟨rfl, rfl⟩

theorem Runs.nil (flags : Flags) : Runs flags [] flags [] [] := ⟨rfl, rfl⟩

theorem Runs.cons {later laterContent : PyText}
    (step : separate flags words = (between, reasoning, content))
    (rest : Runs between texts after later laterContent) :
    Runs flags (words :: texts) after (reasoning ++ later) (content ++ laterContent) where
  ends := by
    rw [flagsAfter, step]
    exact rest.ends
  sends := by
    rw [separateAll_cons, step, rest.sends]

theorem Runs.append {later laterContent : PyText} (run : Runs flags first between reasoning content)
    (rest : Runs between second after later laterContent) :
    Runs flags (first ++ second) after (reasoning ++ later) (content ++ laterContent) := by
  induction first generalizing flags reasoning content with
  | nil =>
    obtain ⟨rfl, sends⟩ := run
    obtain ⟨rfl, rfl⟩ := Prod.mk.inj sends
    exact rest
  | cons words texts ih =>
    obtain ⟨same, sends⟩ := run
    rw [separateAll_cons] at sends
    obtain ⟨rfl, rfl⟩ := Prod.mk.inj sends
    have later' := ih ⟨same, rfl⟩
    have whole := Runs.cons (show separate flags words = (_, _, _) from rfl) later'
    rw [List.append_assoc, List.append_assoc]
    exact whole

theorem size_separateAll (flags : Flags) (texts : List PyText) :
    size (separateAll flags texts) + (texts.map cost).sum ≤ (letters texts.flatten).length := by
  induction texts generalizing flags with
  | nil => exact le_rfl
  | cons words rest ih =>
    have here := size_separate flags words
    have later := ih (separate flags words).1
    rw [List.map_cons, List.sum_cons, List.flatten_cons, letters_append, List.length_append,
      separateAll_cons]
    simp only [size, letters_append, List.length_append] at here later ⊢
    omega

theorem size_of_runs (run : Runs flags first between reasoning content) (second : List PyText) :
    size (separateAll flags (first ++ second)) =
      size (reasoning, content) + size (separateAll between second) := by
  have whole := run.append (.self between second)
  rw [whole.sends]
  simp only [size, letters_append, List.length_append]
  omega

end Runs

/-! ### In front of the tags -/

/-- No text is taken for the beginning of a quote, unless the quote is over at once. -/
def Unquoted (texts : List PyText) : Prop :=
  ∀ words ∈ texts, opensQuote words = true → has "\n\n" (quoted words) = true

instance (texts : List PyText) : Decidable (Unquoted texts) :=
  inferInstanceAs (Decidable (∀ words ∈ texts,
    opensQuote words = true → has "\n\n" (quoted words) = true))

section Front

variable {front : List PyText} {words : PyText}

theorem separate_front (noTags : NoTags words)
    (unquoted : opensQuote words = true → has "\n\n" (quoted words) = true) :
    separate {} words = ({}, [], words) := by
  have outside :
      ((false || opensQuote words) && (!has "\n\n" (quoted words) || false)) = false := by
    cases opens : opensQuote words with
    | false => rfl
    | true => rw [unquoted opens]; rfl
  rw [separate, if_neg (mt has_thinkTag.mp noTags.noThink), separateBehind,
    if_neg (mt has_endTag.mp noTags.noEnd)]
  show separateQuote {} words = _
  rw [separateQuote]
  dsimp only
  rw [outside]
  rfl

/-- **In front of the tags** contents are sent as they are. -/
theorem runs_front (noTags : ∀ words ∈ front, NoTags words) (unquoted : Unquoted front) :
    Runs {} front {} [] front.flatten := by
  induction front with
  | nil => exact .nil _
  | cons words rest ih =>
    have here := separate_front (noTags words List.mem_cons_self) (unquoted words List.mem_cons_self)
    exact .cons here (ih (fun other among => noTags other (List.mem_cons_of_mem _ among))
      fun other among => unquoted other (List.mem_cons_of_mem _ among))

theorem size_quoted (noTags : ∀ words ∈ front, NoTags words) (isQuoted : ¬ Unquoted front)
    (rest : List PyText) :
    size (separateAll {} (front ++ rest)) + 11 + (rest.map cost).sum ≤
      (letters (front ++ rest).flatten).length := by
  induction front with
  | nil => exact absurd (fun _ among => by cases among) isQuoted
  | cons words front ih =>
    have here := noTags words List.mem_cons_self
    rw [List.cons_append, List.flatten_cons, letters_append, List.length_append, separateAll_cons]
    by_cases unquoted : opensQuote words = true → has "\n\n" (quoted words) = true
    · have others (other) (among : other ∈ front) := noTags other (List.mem_cons_of_mem _ among)
      have later := ih others fun rest => isQuoted fun other among =>
        (List.mem_cons.mp among).elim (fun same => by rw [same]; exact unquoted) (rest other)
      rw [separate_front here unquoted]
      simp only [size, letters_append, List.length_append] at later ⊢
      have none : (letters []).length = 0 := rfl
      omega
    · rw [Classical.not_imp] at unquoted
      obtain ⟨opens, over_⟩ := unquoted
      have missing := @size_opened {} words opens (Bool.eq_false_iff.mpr over_) rfl
      have later := size_separateAll (separateQuote {} words).1 (front ++ rest)
      have costs : (rest.map cost).sum ≤ ((front ++ rest).map cost).sum := by
        rw [List.map_append, List.sum_append]
        exact Nat.le_add_left _ _
      have step : separate {} words = separateQuote {} words := by
        rw [separate, if_neg (mt has_thinkTag.mp here.noThink), separateBehind,
          if_neg (mt has_endTag.mp here.noEnd)]
        rfl
      rw [step]
      simp only [size, letters_append, List.length_append] at missing later ⊢
      omega

end Front

/-! ### Between the tags -/

/-- A text without its blank lines. -/
def squeeze (text : PyText) : PyText := replaced "\n\n" "" text

/-- The reasoning of texts between the tags: blank lines are taken out of the first one that is
sent. -/
def squeezeFirst : List PyText → PyText
  | [] => []
  | words :: rest => if squeeze words = [] then squeezeFirst rest else squeeze words ++ rest.flatten

/-- The flags between the tags. -/
def insideFlags (sending : Bool) : Flags := ⟨true, sending, true⟩

section Inside

variable {texts : List PyText} {words : PyText} {sending : Bool}

theorem letters_squeeze (text : PyText) : letters (squeeze text) = letters text :=
  PyText.filter_remove (by decide) (by decide) text

theorem separateBehind_inside (noEnd : ¬ endTag <:+: words) :
    separateBehind (insideFlags sending) words =
      thought (insideFlags sending) (if sending then words else squeeze words) := by
  rw [separateBehind, if_neg (mt has_endTag.mp noEnd)]
  rfl

theorem separate_inside (sending : Bool) (noTags : NoTags words) :
    separate (insideFlags sending) words =
      thought (insideFlags sending) (if sending then words else squeeze words) := by
  rw [separate, if_neg (mt has_thinkTag.mp noTags.noThink), separateBehind_inside noTags.noEnd]

theorem runs_sending (noTags : ∀ words ∈ texts, NoTags words) :
    Runs (insideFlags true) texts (insideFlags true) texts.flatten [] := by
  induction texts with
  | nil => exact .nil _
  | cons words rest ih =>
    have here := separate_inside true (noTags words List.mem_cons_self)
    exact .cons here (ih fun other among => noTags other (List.mem_cons_of_mem _ among))

/-- The first text of the reasoning. -/
theorem runs_begun {flags : Flags} {rest : List PyText} {first : PyText}
    (noTags : ∀ words ∈ rest, NoTags words)
    (step : separate flags words = thought (insideFlags false) (squeeze first))
    (later : ∃ sending, Runs (insideFlags false) rest (insideFlags sending) (squeezeFirst rest) []) :
    ∃ sending, Runs flags (words :: rest) (insideFlags sending)
      (squeezeFirst (first :: rest)) [] := by
  rw [squeezeFirst]
  by_cases empty : squeeze first = []
  · obtain ⟨sending, run⟩ := later
    refine ⟨sending, ?_⟩
    rw [if_pos empty]
    have silent : separate flags words = (insideFlags false, [], []) := by
      rw [step, empty]
      rfl
    exact .cons silent run
  · refine ⟨true, ?_⟩
    rw [if_neg empty]
    have sends : separate flags words = (insideFlags true, squeeze first, []) := by
      rw [step, thought, List.isEmpty_eq_false_iff.mpr empty]
      rfl
    exact .cons sends (runs_sending noTags)

/-- **Between the tags** everything is reasoning. -/
theorem runs_thinking (noTags : ∀ words ∈ texts, NoTags words) :
    ∃ sending, Runs (insideFlags false) texts (insideFlags sending) (squeezeFirst texts) [] := by
  induction texts with
  | nil => exact ⟨false, .nil _⟩
  | cons words rest ih =>
    have here := separate_inside false (noTags words List.mem_cons_self)
    have others : ∀ other ∈ rest, NoTags other :=
      fun other among => noTags other (List.mem_cons_of_mem _ among)
    rw [if_neg Bool.false_ne_true] at here
    exact runs_begun others here (ih others)

theorem letters_squeezeFirst (texts : List PyText) :
    letters (squeezeFirst texts) = letters texts.flatten := by
  induction texts with
  | nil => rfl
  | cons words rest ih =>
    rw [squeezeFirst, List.flatten_cons, letters_append]
    split_ifs with empty
    · rw [ih, ← letters_squeeze words, empty]
      rfl
    · rw [letters_append, letters_squeeze]

/-- Between the tags the reasoning is part of the texts, with all their letters. -/
theorem inside_all (noTags : ∀ words ∈ texts, NoTags words) (sending : Bool) :
    ∃ after reasoning, Runs (insideFlags sending) texts after reasoning [] ∧
      letters reasoning = letters texts.flatten ∧ (texts.flatten = [] → reasoning = []) := by
  cases sending with
  | true => exact ⟨_, _, runs_sending noTags, rfl, id⟩
  | false =>
    obtain ⟨sending, run⟩ := runs_thinking noTags
    refine ⟨_, _, run, letters_squeezeFirst texts, fun empty => ?_⟩
    have nothing : ∀ words ∈ texts, words = [] := List.flatten_eq_nil_iff.mp empty
    clear run noTags empty
    induction texts with
    | nil => rfl
    | cons words rest ih =>
      rw [squeezeFirst, nothing words List.mem_cons_self, if_pos (show squeeze [] = [] from rfl)]
      exact ih fun other among => nothing other (List.mem_cons_of_mem _ among)

end Inside

/-! ### Behind the tags -/

/-- The texts behind the first one that begins a quote. -/
def behindQuote (texts : List PyText) : List PyText := (texts.dropWhile (!opensQuote ·)).tail

/-- **What is seen** of the texts behind the tags, and what is hidden in the reasoning. -/
structure Seen (texts seen : List PyText) (hidden : PyText) : Prop where
  cut : texts = seen ++ behindQuote texts
  letters_hidden : letters hidden = letters (behindQuote texts).flatten
  nothing : (behindQuote texts).flatten = [] → hidden = []
  mark : behindQuote texts = [] ∨ 84 ∈ letters seen.flatten

theorem Seen.flatten {texts seen : List PyText} {hidden : PyText} (isSeen : Seen texts seen hidden) :
    texts.flatten = seen.flatten ++ (behindQuote texts).flatten := by
  rw [← List.flatten_append, ← isSeen.cut]

section Behind

variable {texts : List PyText} {words : PyText} {sending : Bool}

theorem separate_behind (sending : Bool) (noTags : NoTags words) :
    separate ⟨false, sending, true⟩ words = (⟨opensQuote words, sending, true⟩, [], words) := by
  rw [separate, if_neg (mt has_thinkTag.mp noTags.noThink), separateBehind,
    if_neg (mt has_endTag.mp noTags.noEnd)]
  show separateQuote _ words = _
  rw [separateQuote]
  simp

/-- **Behind the tags** contents are sent as they are, until one begins a quote: the others are
reasoning. -/
theorem runs_behind (noTags : ∀ words ∈ texts, NoTags words) (sending : Bool) :
    ∃ after seen hidden, Runs ⟨false, sending, true⟩ texts after hidden seen.flatten
      ∧ Seen texts seen hidden := by
  induction texts with
  | nil => exact ⟨_, [], [], .nil _, rfl, rfl, fun _ => rfl, .inl rfl⟩
  | cons words rest ih =>
    have here := separate_behind sending (noTags words List.mem_cons_self)
    have others : ∀ other ∈ rest, NoTags other :=
      fun other among => noTags other (List.mem_cons_of_mem _ among)
    cases opens : opensQuote words with
    | false =>
      have same : behindQuote (words :: rest) = behindQuote rest := by
        rw [behindQuote, List.dropWhile_cons_of_pos (by rw [opens]; rfl)]
        rfl
      obtain ⟨after, seen, hidden, run, isSeen⟩ := ih others
      rw [opens] at here
      refine ⟨after, words :: seen, hidden, .cons here run, ?_⟩
      constructor
      · rw [same, List.cons_append, ← isSeen.cut]
      · rw [same, isSeen.letters_hidden]
      · rw [same]
        exact isSeen.nothing
      · rw [same, List.flatten_cons, letters_append]
        exact isSeen.mark.imp_right (List.mem_append_right _)
    | true =>
      have same : behindQuote (words :: rest) = rest := by
        rw [behindQuote, List.dropWhile_cons_of_neg (by rw [opens]; decide)]
        rfl
      rw [opens] at here
      obtain ⟨after, hidden, run, isHidden, nothing⟩ := inside_all others sending
      refine ⟨after, [words], hidden, ?_, ?_⟩
      · have whole := Runs.cons here run
        rw [List.append_nil] at whole
        rwa [List.flatten_singleton]
      constructor
      · rw [same]
        rfl
      · rw [same]
        exact isHidden
      · rw [same]
        exact nothing
      · have found : Utf8.points "Thinking..." <:+: words :=
          isSubstring_iff.mp (Bool.and_eq_true_iff.mp opens).1
        rw [List.flatten_singleton]
        exact .inr (List.mem_filter.mpr ⟨found.subset (by decide), by decide⟩)

end Behind

/-! ### Blank lines -/

/-- Two line breaks. -/
def blankLine : PyText := Utf8.points "\n\n"

section Squeeze

variable {text front back : PyText} {rest : List PyText}

theorem squeeze_eq_remove (text : PyText) : squeeze text = PyText.remove blankLine text := rfl

/-- **Blank lines are taken out part by part**, where none is cut. -/
theorem squeeze_append {front back : PyText}
    (whole : front.getLast? = some 10 → back.head? ≠ some 10) :
    squeeze (front ++ back) = squeeze front ++ squeeze back := by
  rw [squeeze_eq_remove, squeeze_eq_remove, squeeze_eq_remove]
  induction front using PyText.remove_induct (show blankLine ≠ [] by decide) with
  | nil => rfl
  | found rest ih =>
    rw [List.append_assoc, PyText.remove_word (by decide), PyText.remove_word (by decide)]
    refine ih fun last => whole ?_
    rw [List.getLast?_append, last]
    rfl
  | stays letter rest absent ih =>
    have absent' : ¬ blankLine <+: letter :: (rest ++ back) := by
      intro begins
      obtain ⟨isBreak, others⟩ := List.cons_prefix_cons.mp begins
      cases rest with
      | nil =>
        obtain ⟨more, same⟩ := others
        refine whole (by rw [← isBreak]; rfl) ?_
        rw [show back = [10] ++ more from same.symm]
        rfl
      | cons next rest =>
        obtain ⟨isBreak', -⟩ := List.cons_prefix_cons.mp others
        exact absent (by rw [← isBreak, ← isBreak']; exact ⟨rest, rfl⟩)
    rw [List.cons_append, PyText.remove_cons absent', PyText.remove_cons absent, List.cons_append]
    rw [ih]
    intro last
    cases rest with
    | nil => cases last
    | cons next rest => exact whole (by rw [List.getLast?_cons_cons]; exact last)

theorem squeeze_eq_iff : squeeze text = text ↔ has "\n\n" text = false := by
  rw [Bool.eq_false_iff, ne_eq, has_iff]
  constructor
  · intro same found
    have shorter := PyText.length_remove (by decide) (fun _ => true) found
    rw [show PyText.remove (Utf8.points "\n\n") text = text from same] at shorter
    exact absurd shorter (by simp [Utf8.points])
  · exact PyText.remove_of_absent

theorem blank_squeeze : Blank (squeeze text) ↔ Blank text := by
  rw [blank_iff, blank_iff, letters_squeeze]

theorem head?_trimFront (text : PyText) : (trimFront text).head? ≠ some 10 := by
  intro isBreak
  have stays := List.head?_dropWhile_not (· == 10) text
  rw [show (text.dropWhile (· == 10)).head? = some 10 from isBreak] at stays
  exact absurd stays (by decide)

theorem trimFront_eq_self (notBreak : text.head? ≠ some 10) : trimFront text = text := by
  cases text with
  | nil => rfl
  | cons letter rest =>
    refine List.dropWhile_cons_of_neg ?_
    simpa using notBreak

theorem trimFront_squeeze (text : PyText) : trimFront (squeeze text) = squeeze (trimFront text) := by
  have breaks : Blank (text.takeWhile (· == 10)) :=
    fun point among => by simpa using List.mem_takeWhile_imp among
  have notBreak := head?_trimFront text
  have first : trimFront (squeeze (trimFront text)) = squeeze (trimFront text) := by
    refine trimFront_eq_self ?_
    cases isText : trimFront text with
    | nil => exact fun same => by cases same
    | cons letter rest =>
      rw [isText] at notBreak
      have absent : ¬ blankLine <+: letter :: rest := fun begins =>
        notBreak (by rw [← (List.cons_prefix_cons.mp begins).1]; rfl)
      rw [squeeze_eq_remove, PyText.remove_cons absent]
      exact notBreak
  have cut : text.takeWhile (· == 10) ++ trimFront text = text := List.takeWhile_append_dropWhile
  calc
    trimFront (squeeze text) =
        trimFront (squeeze (text.takeWhile (· == 10) ++ trimFront text)) := by rw [cut]
    _ = trimFront (squeeze (text.takeWhile (· == 10)) ++ squeeze (trimFront text)) := by
      rw [squeeze_append fun _ => notBreak]
    _ = squeeze (trimFront text) := by
      rw [trimFront_append_of_blank (blank_squeeze.mpr breaks), first]

theorem trimBack_squeeze (text : PyText) : trimBack (squeeze text) = squeeze (trimBack text) := by
  have cut : trimBack text ++ text.rtakeWhile (· == 10) = text := List.rdropWhile_append_rtakeWhile
  have breaks : Blank (text.rtakeWhile (· == 10)) := fun point among => by
    simpa using List.mem_rtakeWhile_imp among
  have notBreak : (trimBack text).getLast? ≠ some 10 := by
    rw [trimBack_eq_reverse, List.getLast?_reverse]
    exact head?_trimFront _
  have last : trimBack (squeeze (trimBack text)) = squeeze (trimBack text) := by
    rcases List.eq_nil_or_concat (trimBack text) with isNil | ⟨front, letter, isText⟩
    · rw [isNil]
      rfl
    · rw [List.concat_eq_append] at isText
      rw [isText, List.getLast?_concat] at notBreak
      have single : squeeze [letter] = [letter] := by
        refine PyText.remove_of_absent fun found => ?_
        exact absurd found.length_le (show ¬ 2 ≤ 1 by decide)
      have isLetter : letter ≠ 10 := fun same => notBreak (by rw [same])
      have notBreak' : ([letter] : PyText).head? ≠ some 10 := notBreak
      rw [isText, squeeze_append fun _ => notBreak', single, trimBack_append _ fun blank =>
        isLetter (blank letter List.mem_cons_self)]
      have stays : trimBack [letter] = [letter] := by
        rw [trimBack_eq_reverse, List.reverse_singleton, trimFront_eq_self notBreak',
          List.reverse_singleton]
      rw [stays]
  calc
    trimBack (squeeze text) = trimBack (squeeze (trimBack text ++ text.rtakeWhile (· == 10))) := by
      rw [cut]
    _ = trimBack (squeeze (trimBack text) ++ squeeze (text.rtakeWhile (· == 10))) := by
      rw [squeeze_append fun same => absurd same notBreak]
    _ = squeeze (trimBack text) := by
      rw [trimBack_append_of_blank _ (blank_squeeze.mpr breaks), last]

theorem trim_squeeze (text : PyText) : trim (squeeze text) = squeeze (trim text) := by
  rw [trim, trimFront_squeeze, trimBack_squeeze]
  rfl

theorem trim_append_of_blank (front : PyText) (blank : Blank back) :
    trim (front ++ back) = trim front := by
  rw [trim, trim]
  by_cases empty : Blank front
  · rw [trimFront_append_of_blank empty, trimFront_of_blank blank, trimFront_of_blank empty]
  · rw [trimFront_append empty, trimBack_append_of_blank _ blank]

theorem trim_of_blank_append (blank : Blank front) (back : PyText) :
    trim (front ++ back) = trim back := by
  rw [trim, trimFront_append_of_blank blank]
  rfl

theorem trim_trimBack (front back : PyText) :
    trim (front ++ trimBack back) = trim (front ++ back) := by
  have cut : trimBack back ++ back.rtakeWhile (· == 10) = back := List.rdropWhile_append_rtakeWhile
  have breaks : Blank (back.rtakeWhile (· == 10)) := fun point among => by
    simpa using List.mem_rtakeWhile_imp among
  calc
    trim (front ++ trimBack back) = trim (front ++ trimBack back ++ back.rtakeWhile (· == 10)) :=
      (trim_append_of_blank _ breaks).symm
    _ = trim (front ++ back) := by rw [List.append_assoc, cut]

/-- **No blank line lies between letters** of the first text that is sent; `behind` is the last
text. -/
def KeepsLines (behind : PyText) : List PyText → Prop
  | [] => True
  | words :: rest =>
    if squeeze words = [] then KeepsLines behind rest
    else has "\n\n" (if Blank (rest.flatten ++ behind) then trim words else trimFront words) = false

instance decidableKeepsLines (behind : PyText) : ∀ texts, Decidable (KeepsLines behind texts)
  | [] => inferInstanceAs (Decidable True)
  | words :: rest =>
    have := decidableKeepsLines behind rest
    inferInstanceAs (Decidable (if squeeze words = [] then KeepsLines behind rest
      else has "\n\n"
        (if Blank (rest.flatten ++ behind) then trim words else trimFront words) = false))

/-- **The blank lines that are taken out do not matter** when none lies between letters. -/
theorem keepsLines_iff {texts : List PyText} {behind : PyText} :
    trim (squeezeFirst texts ++ behind) = trim (texts.flatten ++ behind)
      ↔ KeepsLines behind texts := by
  induction texts with
  | nil => exact iff_of_true rfl trivial
  | cons words rest ih =>
    rw [squeezeFirst, KeepsLines, List.flatten_cons, List.append_assoc]
    by_cases empty : squeeze words = []
    · have blank : Blank words := blank_squeeze.mp
        (by rw [empty]; exact fun _ among => by cases among)
      rw [if_pos empty, if_pos empty, trim_of_blank_append blank]
      exact ih
    · rw [if_neg empty, if_neg empty, List.append_assoc]
      by_cases blankRest : Blank (rest.flatten ++ behind)
      · rw [if_pos blankRest, trim_append_of_blank _ blankRest,
          trim_append_of_blank _ blankRest, trim_squeeze]
        exact squeeze_eq_iff
      · rw [if_neg blankRest]
        by_cases blank : Blank words
        · rw [trim_of_blank_append (blank_squeeze.mpr blank), trim_of_blank_append blank,
            trimFront_of_blank blank]
          exact iff_of_true rfl rfl
        · rw [trim, trim, trimFront_append (mt blank_squeeze.mp blank), trimFront_append blank,
            trimBack_append _ blankRest, trimBack_append _ blankRest, trimFront_squeeze,
            List.append_left_inj]
          exact squeeze_eq_iff

end Squeeze

end UniApi.Providers.OpenaiStream
