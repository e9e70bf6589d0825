/-
**The wait hints of the two planes: how long an error text asks to wait.**

Python searches the message and the text of a failure with a regular expression and decides the unit by
how its spelling starts. The front looks for the same phrase in the text, reads a number, and decides the
unit in its own way. Numbers are exact here, where the sources have doubles.

* `run_fromPhrase`: what the expression matches at the phrase, for all the ways in which it can backtrack;
* `python_reads`, `search_unread`, `front_reads`: what each plane makes of a hint;
* `wait_hint_read_iff`: when both give the duration of a hint.
-/

import Mathlib.Algebra.Order.Floor.Ring
import Mathlib.Data.Rat.Floor
import Mathlib.Tactic.Linarith
import UniApi.Front.Cooldowns
import UniApi.Lib.Regex
import UniApi.Upstream.Policies

namespace UniApi.CrossPlane.WaitHints

open UniApi.Lib UniApi.Upstream
open UniApi.Front (isWhitespace isAsciiDigit splitBehind)

/-! ### Python -/

/-- What `re` knows of letters: the digits of `\d`, with their values, and the letters of `\w`. -/
structure LetterTables where
  digit : CodePoint → Option ℕ
  isWord : CodePoint → Bool
  digit_ascii : ∀ point < 128, digit point = if isAsciiDigit point then some (point - 48) else none
  digit_space : ∀ point, PyText.isSpace point = true → digit point = none
  isWord_ascii : ∀ point < 128, isWord point =
    (isAsciiDigit point || 97 ≤ PyText.lowerAscii point && PyText.lowerAscii point ≤ 122 || point == 95)
  isWord_variants : isWord 0x130 = true ∧ isWord 0x131 = true ∧ isWord 0x17F = true

/-- A letter of the pattern, with `re.IGNORECASE`: a dotted capital and a dotless small letter are the
same as an `i`, and a long letter is the same as an `s`. -/
def sameLetter (letter point : CodePoint) : Bool :=
  PyText.lowerAscii point == letter || (letter == 105 && (point == 0x130 || point == 0x131)) ||
    (letter == 115 && point == 0x17F)

def word (text : String) : Regex CodePoint := .literal sameLetter (Utf8.points text)

/-- A word with `s?` behind it. -/
def plural (text : String) : Regex CodePoint := .seq (word text) (.optional (word "s"))

/-- `ms|milliseconds?|s|sec|secs|seconds?|m|min|mins|minutes?` -/
def units : Regex CodePoint :=
  .alt (word "ms") <| .alt (plural "millisecond") <| .alt (word "s") <| .alt (word "sec") <|
    .alt (word "secs") <| .alt (plural "second") <| .alt (word "m") <| .alt (word "min") <|
      .alt (word "mins") (plural "minute")

section Python

variable (tables : LetterTables)

def isDigit (point : CodePoint) : Bool := (tables.digit point).isSome

/-- `\d+(?:\.\d+)?` -/
def number : Regex CodePoint :=
  .seq (.plus (isDigit tables)) (.optional (.seq (.one (· == 46)) (.plus (isDigit tables))))

/-- `\s*(ms|...)\b` -/
def unitPattern : Regex CodePoint :=
  .seq (.many PyText.isSpace) <| .seq (.group units) (.edge tables.isWord)

/-- The expression of `retry_after_seconds`. -/
def waitPattern : Regex CodePoint :=
  .seq (word "try again in") <| .seq (.plus PyText.isSpace) <| .seq (.group (number tables)) (unitPattern tables)

/-- A decimal number, by the digits on both sides of its point. -/
def exactDecimal (whole fraction : List ℕ) : ℚ :=
  ((whole ++ fraction).foldl (fun value next => 10 * value + next) 0 : ℕ) / 10 ^ fraction.length

/-- `float(..)` of a text that the expression found. -/
def exactFloat (text : PyText) : ℚ :=
  exactDecimal ((text.takeWhile (· != 46)).filterMap tables.digit)
    (((text.dropWhile (· != 46)).drop 1).filterMap tables.digit)

/-- The seconds of a number with a unit, by how the unit starts. -/
def secondsOf (value : ℚ) (unit : PyText) : ℚ :=
  if (Utf8.points "ms").isPrefixOf unit then value / 1000
  else if (Utf8.points "m").isPrefixOf unit && !(Utf8.points "ms").isPrefixOf unit then value * 60
  else value

/-- The seconds of a match, by its two groups. -/
def foundSeconds (lower : PyText → PyText) (found : Cursor CodePoint) : ℤ :=
  max 1 ⌈secondsOf (exactFloat tables (found.groups.getD 0 [])) (lower (found.groups.getD 1 []))⌉

/-- What `retry_after_seconds` does with the text that it searches. -/
def waitIn (lower : PyText → PyText) (haystack : PyText) : ℤ :=
  match (waitPattern tables).search none haystack with
  | none => 0
  | some found => foundSeconds tables lower found

/-- The text that `retry_after_seconds` searches. -/
def waitHaystack (runtime : PyRuntime) (details : PyText) : PyText :=
  let parts := detailsParts runtime details
  PyText.joinSpaced [parts.message.getD [], parts.raw]

/-- `ProviderErrorClassifier.retry_after_seconds`. -/
def retryAfterSeconds (runtime : PyRuntime) (details : PyText) : ℤ :=
  waitIn tables runtime.lower (waitHaystack runtime details)

end Python

/-! ### The front -/

/-- The numbers that the front calculates with. -/
structure Arithmetic (F : Type) where
  ofDecimal : List ℕ → List ℕ → F
  divNat : ℕ → F → F
  mulNat : ℕ → F → F
  ceil : F → F

def doubles : Arithmetic Double := ⟨Double.ofDecimal, Double.divNat, Double.mulNat, Double.ceil⟩

def exact : Arithmetic ℚ := ⟨exactDecimal, fun divisor => (· / divisor), fun factor => (· * factor), (⌈·⌉)⟩

section Front

variable {F : Type} (arithmetic : Arithmetic F)

/-- `parse::<f64>()` of digits and points. -/
def parseNumber (text : List CodePoint) : Option F :=
  let whole := text.takeWhile isAsciiDigit
  let fraction := (text.dropWhile isAsciiDigit).drop 1
  if fraction.all isAsciiDigit && !(whole ++ fraction).isEmpty then
    some (arithmetic.ofDecimal (whole.map (· - 48)) (fraction.map (· - 48)))
  else none

/-- `retry_after_seconds` of the front, from the text in lower case on. -/
def frontWaitIn (lowered : List CodePoint) : Option F := do
  let behind ← splitBehind (Utf8.points "try again in") lowered
  let tail := behind.dropWhile isWhitespace
  let isNumber := fun point => isAsciiDigit point || point == 46
  let number := tail.takeWhile isNumber
  if number.isEmpty then none
  else
    let value ← parseNumber arithmetic number
    let unit := (tail.dropWhile isNumber).dropWhile isWhitespace
    if (Utf8.points "ms").isPrefixOf unit || (Utf8.points "millisecond").isPrefixOf unit then
      some (arithmetic.ceil (arithmetic.divNat 1000 value))
    else if (Utf8.points "m").isPrefixOf unit then some (arithmetic.ceil (arithmetic.mulNat 60 value))
    else some (arithmetic.ceil value)

theorem frontWaitIn_doubles (detail : Bytes) :
    frontWaitIn doubles (pyText (Front.asciiLowered detail)) = Front.retryAfterSeconds detail := rfl

/-- `retry_after_seconds` of the front with exact numbers. -/
def frontRetryAfterSeconds (detail : List CodePoint) : Option ℚ :=
  frontWaitIn exact (detail.map PyText.lowerAscii)

end Front

/-! ### Hints -/

/-- The units that are accepted, by their spellings. -/
inductive WaitUnit where
  | ms | millisecond | milliseconds
  | s | sec | secs | second | seconds
  | m | min | mins | minute | minutes
  deriving DecidableEq

namespace WaitUnit

def spelled : WaitUnit → String
  | ms => "ms" | millisecond => "millisecond" | milliseconds => "milliseconds"
  | s => "s" | sec => "sec" | secs => "secs" | second => "second" | seconds => "seconds"
  | m => "m" | min => "min" | mins => "mins" | minute => "minute" | minutes => "minutes"

/-- The seconds of one unit. -/
def duration : WaitUnit → ℚ
  | ms | millisecond | milliseconds => 1 / 1000
  | s | sec | secs | second | seconds => 1
  | m | min | mins | minute | minutes => 60

/-- The long spellings of a millisecond. -/
def isLongMillisecond : WaitUnit → Bool
  | millisecond | milliseconds => true
  | _ => false

end WaitUnit

/-- The phrase starts the text, in any letter case. -/
def StartsWithPhrase (text : PyText) : Prop :=
  ∃ phrase rest, text = phrase ++ rest ∧
    List.Forall₂ (fun letter point => sameLetter letter point = true) (Utf8.points "try again in") phrase

/-- The text of a number, which may have a point. -/
def numberText (whole : PyText) (fraction : Option PyText) : PyText :=
  whole ++ fraction.elim [] fun digits => 46 :: digits

/-- **A wait hint**: the phrase, a number and a unit in any letter case, with any text around them. The
phrase does not occur before, and the unit is the longest spelling that stands there. -/
structure WaitHint where
  front : PyText
  phrase : PyText
  gap : PyText
  whole : PyText
  fraction : Option PyText
  space : PyText
  unit : WaitUnit
  unitText : PyText
  after : PyText
  isPhrase : phrase.map PyText.lowerAscii = Utf8.points "try again in"
  hasGap : gap ≠ []
  isGap : ∀ point ∈ gap, isWhitespace point = true
  isWhole : ∀ point ∈ whole, isAsciiDigit point = true
  isFraction : ∀ point ∈ fraction.getD [], isAsciiDigit point = true
  hasDigit : whole ++ fraction.getD [] ≠ []
  isSpace : ∀ point ∈ space, isWhitespace point = true
  isUnit : unitText.map PyText.lowerAscii = Utf8.points unit.spelled
  isLongest : ∀ other : WaitUnit,
    Utf8.points other.spelled <+: (unitText ++ after).map PyText.lowerAscii →
      (Utf8.points other.spelled).length ≤ unitText.length
  isFirst : ∀ start behind letter, front = start ++ letter :: behind →
    ¬ StartsWithPhrase (letter :: behind ++
      (phrase ++ (gap ++ (numberText whole fraction ++ (space ++ (unitText ++ after))))))

namespace WaitHint

variable (hint : WaitHint)

/-- What is behind the phrase. -/
def behind : PyText :=
  hint.gap ++ (numberText hint.whole hint.fraction ++ (hint.space ++ (hint.unitText ++ hint.after)))

/-- The hint from its phrase on. -/
def fromPhrase : PyText := hint.phrase ++ hint.behind

def text : PyText := hint.front ++ hint.fromPhrase

/-- The number of the hint. -/
def value : ℚ := exactDecimal (hint.whole.map (· - 48)) ((hint.fraction.getD []).map (· - 48))

/-- How long the hint asks to wait. -/
def duration : ℚ := hint.value * hint.unit.duration

/-- The word that starts with the unit. -/
def unitWord (tables : LetterTables) : PyText := hint.unitText ++ hint.after.takeWhile tables.isWord

/-- The expression takes the hint: a digit is in front of the point, a digit behind it, and the word that
starts with the unit is a unit as a whole. -/
def IsTaken (tables : LetterTables) : Prop :=
  (hint.whole ≠ [] ∧ hint.fraction ≠ some []) ∧ ∃ unit : WaitUnit,
    List.Forall₂ (fun letter point => sameLetter letter point = true) (Utf8.points unit.spelled)
      (hint.unitWord tables)

end WaitHint

/-! ### Letters -/

section Letters

variable {tables : LetterTables} {point letter : CodePoint}

theorem isSpace_of_isWhitespace (space : isWhitespace point = true) : PyText.isSpace point = true := by
  simp only [isWhitespace, PyText.isSpace, Bool.or_eq_true, Bool.and_eq_true, decide_eq_true_eq, beq_iff_eq]
    at space ⊢
  have widen : point = 0x20 → (0x1C : ℕ) ≤ point ∧ point ≤ 0x20 := by rintro rfl; decide
  tauto

theorem isDigit_bounds (digit : isAsciiDigit point = true) : 48 ≤ point ∧ point ≤ 57 := by
  simpa [isAsciiDigit] using digit

theorem isSpace_small : ∀ point < 128, 33 ≤ point → PyText.isSpace point = false := by decide

theorem isSpace_digit (digit : isAsciiDigit point = true) : PyText.isSpace point = false := by
  have bounds := isDigit_bounds digit
  exact isSpace_small point (lt_of_le_of_lt bounds.2 (by decide)) (le_trans (by decide) bounds.1)

theorem isDigit_of_isAsciiDigit (digit : isAsciiDigit point = true) :
    tables.digit point = some (point - 48) := by
  have bounds := isDigit_bounds digit
  rw [tables.digit_ascii point (lt_of_le_of_lt bounds.2 (by decide)), if_pos digit]

theorem isDigit_low (low : point < 128) (other : isAsciiDigit point = false) :
    isDigit tables point = false := by
  rw [isDigit, tables.digit_ascii point low, if_neg (by simp [other])]
  rfl

theorem isDigit_space (space : PyText.isSpace point = true) : isDigit tables point = false := by
  rw [isDigit, tables.digit_space point space]
  rfl

theorem sameLetter_lowerAscii (point : CodePoint) :
    sameLetter (PyText.lowerAscii point) point = true := by
  simp [sameLetter]

theorem sameLetter_map_lowerAscii (text : PyText) :
    List.Forall₂ (fun letter point => sameLetter letter point = true) (text.map PyText.lowerAscii) text := by
  rw [List.forall₂_map_left_iff, List.forall₂_same]
  exact fun point _ => sameLetter_lowerAscii point

theorem low_of_lowerAscii (small : PyText.lowerAscii point ≤ 122) : point < 128 := by
  unfold PyText.lowerAscii at small
  split at small
  · rename_i capital
    exact lt_of_le_of_lt capital.2 (by decide)
  · exact lt_of_le_of_lt small (by decide)

/-- A letter in either case is no digit, no point and no white space. -/
theorem letter_apart : ∀ point < 128, 97 ≤ PyText.lowerAscii point → PyText.lowerAscii point ≤ 122 →
    isAsciiDigit point = false ∧ point ≠ 46 ∧ PyText.isSpace point = false := by decide

theorem isWord_of_sameLetter (small : 97 ≤ letter ∧ letter ≤ 122)
    (same : sameLetter letter point = true) :
    tables.isWord point = true := by
  simp only [sameLetter, Bool.or_eq_true, Bool.and_eq_true, beq_iff_eq] at same
  rcases same with (same | ⟨_, same | same⟩) | ⟨_, same⟩
  · have low : point < 128 := low_of_lowerAscii (same ▸ small.2)
    rw [tables.isWord_ascii point low, same]
    simp [small.1, small.2]
  · rw [same, tables.isWord_variants.1]
  · rw [same, tables.isWord_variants.2.1]
  · rw [same, tables.isWord_variants.2.2]

/-- A letter of a unit is no digit, no point and no white space. -/
theorem sameLetter_apart (small : 97 ≤ letter ∧ letter ≤ 122) (same : sameLetter letter point = true) :
    isAsciiDigit point = false ∧ point ≠ 46 ∧ PyText.isSpace point = false := by
  simp only [sameLetter, Bool.or_eq_true, Bool.and_eq_true, beq_iff_eq] at same
  rcases same with (same | ⟨_, same | same⟩) | ⟨_, same⟩
  · have low : point < 128 := low_of_lowerAscii (same ▸ small.2)
    exact letter_apart point low (same ▸ small.1) (same ▸ small.2)
  all_goals
    rw [same]
    decide

end Letters

/-! ### What Python finds -/

section Units

variable {tables : LetterTables} {letters unit after : PyText} {before : Option CodePoint}
  {groups : List PyText}

/-- A spelling is found where the text has it and no letter of a word follows. -/
theorem run_spelling (nonempty : unit ≠ []) (isWord : ∀ point ∈ unit, tables.isWord point = true)
    (ends : ∀ point ∈ after.head?, tables.isWord point = false)
    (same : List.Forall₂ (fun letter point => sameLetter letter point = true) letters unit) :
    (Regex.seq (.group (.literal sameLetter letters)) (.edge tables.isWord)).run
        ⟨before, unit ++ after, groups⟩ =
      [⟨Regex.lastOf before unit, after, groups ++ [unit]⟩] := by
  have found : (Regex.group (.literal sameLetter letters)).run ⟨before, unit ++ after, groups⟩ =
      [⟨Regex.lastOf before unit, after, groups ++ [unit]⟩] := by
    show ((Regex.literal sameLetter letters).run _).map _ = _
    rw [Regex.run_literal same]
    simp
  have edge : Regex.isEdge tables.isWord ⟨Regex.lastOf before unit, after, groups ++ [unit]⟩ = true := by
    obtain ⟨last, isLast, same⟩ := Regex.lastOf_mem nonempty before
    rw [Regex.isEdge, same]
    cases after with
    | nil => simp [isWord last isLast]
    | cons point rest => simp [isWord last isLast, ends point rfl]
  show ((Regex.group (.literal sameLetter letters)).run _).flatMap (Regex.edge tables.isWord).run = _
  rw [found, List.flatMap_singleton]
  show (if Regex.isEdge tables.isWord _ then _ else _) = _
  rw [if_pos edge]

/-- **Another spelling is not found**: it is none of the text, or a letter of a word follows it, or it
would need one where there is none. -/
theorem run_spelling_none (some_ : letters ≠ []) (small : ∀ letter ∈ letters, 97 ≤ letter ∧ letter ≤ 122)
    (isWord : ∀ point ∈ unit, tables.isWord point = true)
    (ends : ∀ point ∈ after.head?, tables.isWord point = false)
    (other : ¬ List.Forall₂ (fun letter point => sameLetter letter point = true) letters unit) :
    (Regex.seq (.group (.literal sameLetter letters)) (.edge tables.isWord)).run
        ⟨before, unit ++ after, groups⟩ =
      [] := by
  show (((Regex.literal sameLetter letters).run _).map _).flatMap (Regex.edge tables.isWord).run = []
  rcases Regex.run_literal_cases sameLetter letters ⟨before, unit ++ after, groups⟩ with
    none_ | ⟨text, rest, isText, matched, runs⟩
  · rw [none_]
    rfl
  · have textWord : ∀ point ∈ text, tables.isWord point = true := by
      intro point there
      obtain ⟨letter, isLetter, same⟩ : ∃ letter ∈ letters, sameLetter letter point = true := by
        clear runs isText other some_
        induction matched with
        | nil => cases there
        | @cons letter found letters text here _ ih =>
          rcases List.mem_cons.mp there with rfl | behind
          · exact ⟨letter, List.mem_cons_self, here⟩
          · obtain ⟨other, isOther, same⟩ :=
              ih (fun other isOther => small other (List.mem_cons_of_mem _ isOther)) behind
            exact ⟨other, List.mem_cons_of_mem _ isOther, same⟩
      exact isWord_of_sameLetter (small letter isLetter) same
    have textSome : text ≠ [] := by
      rintro rfl
      exact some_ (List.forall₂_nil_right_iff.mp matched)
    rw [runs, List.map_singleton, List.flatMap_singleton]
    show (if Regex.isEdge tables.isWord _ then _ else _) = _
    refine if_neg ?_
    rcases List.append_eq_append_iff.mp isText with ⟨more, isMore, isAfter⟩ | ⟨more, isMore, isRest⟩
    · cases more with
      | nil =>
        rw [List.append_nil] at isMore
        exact absurd (isMore ▸ matched) other
      | cons point more =>
        have isPoint : tables.isWord point = true := textWord point (by rw [isMore]; simp)
        rw [ends point (by rw [isAfter]; rfl)] at isPoint
        cases isPoint
    · cases more with
      | nil =>
        rw [List.append_nil] at isMore
        exact absurd (isMore ▸ matched) other
      | cons point more =>
        obtain ⟨last, isLast, same⟩ := Regex.lastOf_mem textSome before
        have isPoint : tables.isWord point = true := isWord point (by rw [isMore]; simp)
        simp [Regex.isEdge, same, isRest, textWord last isLast, isPoint]

/-- The spellings, in the order in which the expression tries them. -/
def spellings : List WaitUnit :=
  [.ms, .milliseconds, .millisecond, .s, .sec, .secs, .seconds, .second, .m, .min, .mins, .minutes, .minute]

theorem mem_spellings (unit : WaitUnit) : unit ∈ spellings := by
  cases unit <;> decide

theorem spelled_small (unit : WaitUnit) : Utf8.points unit.spelled ≠ [] ∧
    ∀ letter ∈ Utf8.points unit.spelled, 97 ≤ letter ∧ letter ≤ 122 := by
  cases unit <;> decide

theorem run_plural {single several : String}
    (isSeveral : Utf8.points several = Utf8.points single ++ Utf8.points "s")
    (later : Regex CodePoint) (place : Cursor CodePoint) :
    (Regex.seq (.group (plural single)) later).run place =
      (Regex.seq (.group (word several)) later).run place ++
        (Regex.seq (.group (word single)) later).run place := by
  rw [← Regex.run_group_alt]
  refine Regex.run_group_congr ?_ later
  show _ = (Regex.literal sameLetter (Utf8.points several)).run place ++ (word single).run place
  rw [isSeveral]
  exact Regex.run_literal_optional sameLetter _ _ place

theorem run_units (later : Regex CodePoint) (place : Cursor CodePoint) :
    (Regex.seq (.group units) later).run place =
      spellings.flatMap fun unit => (Regex.seq (.group (word unit.spelled)) later).run place := by
  simp only [units, Regex.run_group_alt, @run_plural "millisecond" "milliseconds" rfl,
    @run_plural "second" "seconds" rfl,
    @run_plural "minute" "minutes" rfl, spellings, WaitUnit.spelled, List.flatMap_cons, List.flatMap_nil,
    List.append_nil, List.append_assoc]

/-- A unit does not start with a digit, a point or white space. -/
theorem run_units_none {point : CodePoint} {rest : PyText} (later : Regex CodePoint)
    (other : isAsciiDigit point = true ∨ point = 46 ∨ PyText.isSpace point = true) :
    (Regex.seq (.group units) later).run ⟨before, point :: rest, groups⟩ = [] := by
  rw [run_units, List.flatMap_eq_nil_iff]
  intro unit _
  show (((Regex.literal sameLetter (Utf8.points unit.spelled)).run _).map _).flatMap later.run = []
  rw [Regex.run_literal_none]
  · rfl
  · intro text behind isText matched
    obtain ⟨nonempty, small⟩ := spelled_small unit
    obtain ⟨letter, letters, isSpelled⟩ := List.exists_cons_of_ne_nil nonempty
    rw [isSpelled] at matched small
    cases matched with
    | cons same _ =>
      obtain ⟨rfl, _⟩ := List.cons.inj isText
      obtain ⟨noDigit, noPoint, noSpace⟩ := sameLetter_apart (small letter List.mem_cons_self) same
      rw [noDigit, noSpace] at other
      rcases other with digit | isPoint | space
      exacts [Bool.false_ne_true digit, noPoint isPoint, Bool.false_ne_true space]

theorem run_unitPattern_none {point : CodePoint} {rest : PyText}
    (other : isAsciiDigit point = true ∨ point = 46) :
    (unitPattern tables).run ⟨before, point :: rest, groups⟩ = [] := by
  have noSpace : ∀ letter ∈ (point :: rest).head?, PyText.isSpace letter = false := by
    rintro _ ⟨⟩
    rcases other with digit | rfl
    · exact isSpace_digit digit
    · decide
  have here : (unitPattern tables).run ⟨before, [] ++ point :: rest, groups⟩ = _ :=
    Regex.flatMap_many nofun noSpace nofun
  exact here.trans (run_units_none _ (other.imp_right .inl))

end Units

theorem not_startsWithPhrase {letter : CodePoint} {rest : PyText} (other : sameLetter 116 letter = false) :
    ¬ StartsWithPhrase (letter :: rest) := by
  rintro ⟨phrase, behind, isText, same⟩
  have isPhrase : Utf8.points "try again in" = [116, 114, 121, 32, 97, 103, 97, 105, 110, 32, 105, 110] := by
    decide
  rw [isPhrase] at same
  cases same with
  | cons here _ =>
    cases isText
    rw [here] at other
    cases other

theorem head?_flatMap_of_same {α β : Type} {items : List α} {ways : α → List β} {way : β}
    (same : ∀ item ∈ items, ways item = [way] ∨ ways item = [])
    (found : ∃ item ∈ items, ways item = [way]) :
    (items.flatMap ways).head? = some way := by
  obtain ⟨item, isItem, isWay⟩ := found
  induction items with
  | nil => cases isItem
  | cons first items ih =>
    rw [List.flatMap_cons]
    rcases same first List.mem_cons_self with here | none_
    · rw [here]
      rfl
    · rw [none_, List.nil_append]
      refine ih (fun other isOther => same other (List.mem_cons_of_mem _ isOther)) ?_
      rcases List.mem_cons.mp isItem with rfl | behind
      · rw [isWay] at none_
        cases none_
      · exact behind

namespace WaitHint

variable {tables : LetterTables} (hint : WaitHint) {before : Option CodePoint} {groups : List PyText}

theorem unitText_ne_nil : hint.unitText ≠ [] := by
  intro empty
  have spelled := hint.isUnit
  rw [empty] at spelled
  exact (spelled_small hint.unit).1 spelled.symm

theorem lowerAscii_unit {point : CodePoint} (there : point ∈ hint.unitText) :
    97 ≤ PyText.lowerAscii point ∧ PyText.lowerAscii point ≤ 122 :=
  (spelled_small hint.unit).2 _ (hint.isUnit ▸ List.mem_map_of_mem there)

theorem unitWord_ne_nil : hint.unitWord tables ≠ [] :=
  fun empty => hint.unitText_ne_nil (List.append_eq_nil_iff.mp empty).1

theorem isWord_unitWord : ∀ point ∈ hint.unitWord tables, tables.isWord point = true := by
  intro point there
  rcases List.mem_append.mp there with unit | more
  · exact isWord_of_sameLetter (hint.lowerAscii_unit unit) (sameLetter_lowerAscii point)
  · exact List.mem_takeWhile_imp more

theorem unitWord_ends : ∀ point ∈ (hint.after.dropWhile tables.isWord).head?, tables.isWord point = false := by
  intro point here
  have ends := List.head?_dropWhile_not tables.isWord hint.after
  rw [here] at ends
  exact ends

theorem unitWord_append (tables : LetterTables) :
    hint.unitText ++ hint.after = hint.unitWord tables ++ hint.after.dropWhile tables.isWord := by
  rw [unitWord, List.append_assoc, List.takeWhile_append_dropWhile]

/-- **A word that is a unit is found whole**, with the first spelling that no letter of a word follows. -/
theorem run_unit {unit : WaitUnit} (same : List.Forall₂ (fun letter point => sameLetter letter point = true)
    (Utf8.points unit.spelled) (hint.unitWord tables)) :
    ((Regex.seq (.group units) (.edge tables.isWord)).run
        ⟨before, hint.unitText ++ hint.after, groups⟩).head? =
      some ⟨Regex.lastOf before (hint.unitWord tables), hint.after.dropWhile tables.isWord,
        groups ++ [hint.unitWord tables]⟩ := by
  rw [run_units, hint.unitWord_append tables]
  refine head?_flatMap_of_same (fun other _ => ?_) ⟨unit, mem_spellings unit, ?_⟩
  · obtain ⟨nonempty, small⟩ := spelled_small other
    by_cases same : List.Forall₂ (fun letter point => sameLetter letter point = true)
        (Utf8.points other.spelled) (hint.unitWord tables)
    · exact .inl (run_spelling hint.unitWord_ne_nil hint.isWord_unitWord hint.unitWord_ends same)
    · exact .inr (run_spelling_none nonempty small hint.isWord_unitWord hint.unitWord_ends same)
  · exact run_spelling hint.unitWord_ne_nil hint.isWord_unitWord hint.unitWord_ends same

theorem run_unit_none (other : ∀ unit : WaitUnit,
    ¬ List.Forall₂ (fun letter point => sameLetter letter point = true) (Utf8.points unit.spelled)
      (hint.unitWord tables)) :
    (Regex.seq (.group units) (.edge tables.isWord)).run ⟨before, hint.unitText ++ hint.after, groups⟩ =
      [] := by
  rw [run_units, hint.unitWord_append tables, List.flatMap_eq_nil_iff]
  intro unit _
  obtain ⟨nonempty, small⟩ := spelled_small unit
  exact run_spelling_none nonempty small hint.isWord_unitWord hint.unitWord_ends (other unit)

theorem head_unit {point : CodePoint} {rest : PyText} (here : point ∈ (hint.unitText ++ rest).head?) :
    point < 128 ∧ isAsciiDigit point = false ∧ point ≠ 46 ∧ PyText.isSpace point = false := by
  obtain ⟨first, others, isUnit⟩ := List.exists_cons_of_ne_nil hint.unitText_ne_nil
  rw [isUnit] at here
  cases here
  have bounds := hint.lowerAscii_unit (by rw [isUnit]; exact List.mem_cons_self)
  have low : point < 128 := low_of_lowerAscii bounds.2
  exact ⟨low, letter_apart point low bounds.1 bounds.2⟩

theorem head_number {point : CodePoint} {rest : PyText}
    (here : point ∈ (numberText hint.whole hint.fraction ++ rest).head?) :
    isAsciiDigit point = true ∨ point = 46 := by
  have digits := hint.isWhole
  have some_ := hint.hasDigit
  revert digits some_ here
  cases hint.whole with
  | cons first whole =>
    rintro ⟨⟩ digits _
    exact .inl (digits _ List.mem_cons_self)
  | nil =>
    cases hint.fraction with
    | none => exact fun _ _ some_ => absurd rfl some_
    | some fraction =>
      rintro ⟨⟩ _ _
      exact .inr rfl

theorem isSpace_number {point : CodePoint} {rest : PyText}
    (here : point ∈ (numberText hint.whole hint.fraction ++ rest).head?) : PyText.isSpace point = false := by
  rcases hint.head_number here with digit | rfl
  · exact isSpace_digit digit
  · decide

theorem after_number {point : CodePoint}
    (here : point ∈ (hint.space ++ (hint.unitText ++ hint.after)).head?) :
    isDigit tables point = false ∧ point ≠ 46 := by
  cases isSpace : hint.space with
  | nil =>
    rw [isSpace] at here
    obtain ⟨low, noDigit, noPoint, _⟩ := hint.head_unit here
    exact ⟨isDigit_low low noDigit, noPoint⟩
  | cons first rest =>
    rw [isSpace] at here
    cases here
    have white := isSpace_of_isWhitespace (hint.isSpace point (by rw [isSpace]; simp))
    refine ⟨isDigit_space white, ?_⟩
    rintro rfl
    exact absurd white (by decide)

theorem isDigit_all {text : PyText} (digits : ∀ point ∈ text, isAsciiDigit point = true) :
    ∀ point ∈ text, isDigit tables point = true := by
  intro point there
  rw [isDigit, isDigit_of_isAsciiDigit (digits point there)]
  rfl

theorem isSpace_all {text : PyText} (white : ∀ point ∈ text, isWhitespace point = true) :
    ∀ point ∈ text, PyText.isSpace point = true :=
  fun point there => isSpace_of_isWhitespace (white point there)

/-- A text of the number and what is behind it, where the group of the number is closed. -/
def closeNumber (tables : LetterTables) (place next : Cursor CodePoint) : List (Cursor CodePoint) :=
  (unitPattern tables).run
    { next with groups := next.groups ++ [place.rest.take (place.rest.length - next.rest.length)] }

/-- The fraction of a number, where its whole part was read: with digits it is taken, and the expression
fails at a point that it has to leave. -/
theorem run_fraction (place : Cursor CodePoint) :
    ((Regex.optional (.seq (.one (· == 46)) (.plus (isDigit tables)))).run
        ⟨before, hint.fraction.elim [] (46 :: ·) ++ (hint.space ++ (hint.unitText ++ hint.after)),
          groups⟩).flatMap (closeNumber tables place) =
      if hint.fraction = some [] then []
      else closeNumber tables place ⟨Regex.lastOf before (hint.fraction.elim [] (46 :: ·)),
        hint.space ++ (hint.unitText ++ hint.after), groups⟩ := by
  have stops : ∀ point ∈ (hint.space ++ (hint.unitText ++ hint.after)).head?,
      isDigit tables point = false ∧ point ≠ 46 := fun point here => hint.after_number here
  have digits := hint.isFraction
  generalize hint.space ++ (hint.unitText ++ hint.after) = rest at stops ⊢
  show ((Regex.seq _ _).run _ ++ [_]).flatMap _ = _
  rw [List.flatMap_append, List.flatMap_singleton]
  cases isFraction : hint.fraction with
  | none =>
    have noPoint : (Regex.one (· == 46)).run ⟨before, rest, groups⟩ = [] := by
      cases rest with
      | nil => rfl
      | cons point rest => exact if_neg (by simpa using (stops point rfl).2)
    show (((Regex.one (· == 46)).run _).flatMap _).flatMap _ ++ _ = _
    rw [Option.elim_none, List.nil_append, noPoint, if_neg (by simp)]
    rfl
  | some fraction =>
    have left : closeNumber tables place ⟨before, 46 :: (fraction ++ rest), groups⟩ = [] :=
      run_unitPattern_none (.inr rfl)
    have point : (Regex.seq (.one (· == 46)) (.plus (isDigit tables))).run
        ⟨before, 46 :: (fraction ++ rest), groups⟩ =
          (Regex.plus (isDigit tables)).run ⟨some 46, fraction ++ rest, groups⟩ := List.flatMap_singleton _ _
    rw [isFraction] at digits
    rw [Option.elim_some, List.cons_append, point, left, List.append_nil]
    by_cases empty : fraction = []
    · rw [empty, List.nil_append, Regex.run_plus_none fun point here => (stops point here).1, if_pos rfl]
      rfl
    · rw [if_neg (by simpa using empty)]
      exact Regex.flatMap_plus empty (isDigit_all digits) (fun point here => (stops point here).1)
        fun point there _ _ => run_unitPattern_none (.inl (digits point there))

/-- **A number is found whole**, or, without a digit in front of its point or behind it, not at all. -/
theorem run_number :
    (Regex.seq (.group (number tables)) (unitPattern tables)).run
        ⟨before, numberText hint.whole hint.fraction ++ (hint.space ++ (hint.unitText ++ hint.after)), groups⟩ =
      if hint.whole ≠ [] ∧ hint.fraction ≠ some [] then
        (unitPattern tables).run ⟨Regex.lastOf before (numberText hint.whole hint.fraction),
          hint.space ++ (hint.unitText ++ hint.after), groups ++ [numberText hint.whole hint.fraction]⟩
      else [] := by
  generalize isPlace : Cursor.mk before
    (numberText hint.whole hint.fraction ++ (hint.space ++ (hint.unitText ++ hint.after))) groups = place
  have opened : (Regex.seq (.group (number tables)) (unitPattern tables)).run place =
      ((Regex.plus (isDigit tables)).run place).flatMap fun next =>
        ((Regex.optional (.seq (.one (· == 46)) (.plus (isDigit tables)))).run next).flatMap
          (closeNumber tables place) := by
    show (((number tables).run place).map _).flatMap _ = _
    rw [List.flatMap_map, ← List.flatMap_assoc]
    rfl
  have isRest : place = ⟨before, hint.whole ++ (hint.fraction.elim [] (46 :: ·) ++
      (hint.space ++ (hint.unitText ++ hint.after))), groups⟩ := by
    rw [← isPlace, numberText, List.append_assoc]
  rw [opened]
  have stops : ∀ point ∈ (hint.fraction.elim [] (46 :: ·) ++
      (hint.space ++ (hint.unitText ++ hint.after))).head?, isDigit tables point = false := by
    cases hint.fraction with
    | none => exact fun point here => (hint.after_number here).1
    | some fraction =>
      rintro _ ⟨⟩
      exact isDigit_low (by decide) (by decide)
  by_cases empty : hint.whole = []
  · rw [isRest, empty, List.nil_append, Regex.run_plus_none stops, if_neg fun taken => taken.1 rfl]
    rfl
  · have fails : ∀ point ∈ hint.whole, ∀ before behind,
        ((Regex.optional (.seq (.one (· == 46)) (.plus (isDigit tables)))).run
          ⟨before, point :: behind, groups⟩).flatMap (closeNumber tables place) = [] := by
      intro point there before behind
      have digit := hint.isWhole point there
      have noPoint : (Regex.one (· == 46)).run ⟨before, point :: behind, groups⟩ = [] := by
        refine if_neg fun isPoint => ?_
        rw [eq_of_beq isPoint] at digit
        exact absurd digit (by decide)
      show ((((Regex.one (· == 46)).run _).flatMap _) ++ [_]).flatMap _ = []
      rw [noPoint]
      exact (List.flatMap_singleton _ _).trans (run_unitPattern_none (.inl digit))
    have whole : ((Regex.plus (isDigit tables)).run place).flatMap (fun next =>
        ((Regex.optional (.seq (.one (· == 46)) (.plus (isDigit tables)))).run next).flatMap
          (closeNumber tables place)) = _ := isRest ▸ Regex.flatMap_plus empty (isDigit_all hint.isWhole) stops fails
    rw [whole, hint.run_fraction]
    by_cases noFraction : hint.fraction = some []
    · rw [if_pos noFraction, if_neg fun taken => taken.2 noFraction]
    · have number : ∀ rest : PyText, (numberText hint.whole hint.fraction ++ rest).take
          ((numberText hint.whole hint.fraction ++ rest).length - rest.length) =
            numberText hint.whole hint.fraction := by
        intro rest
        rw [List.length_append, Nat.add_sub_cancel, List.take_left]
      rw [if_neg noFraction, if_pos ⟨empty, noFraction⟩, closeNumber, ← isPlace, number]
      simp only [numberText, Regex.lastOf_append]

/-- What the expression matches from the phrase on is what it matches from the number on. -/
theorem run_fromPhrase :
    (waitPattern tables).run ⟨before, hint.fromPhrase, []⟩ =
      (Regex.seq (.group (number tables)) (unitPattern tables)).run
        ⟨Regex.lastOf (Regex.lastOf before hint.phrase) hint.gap, numberText hint.whole hint.fraction ++
          (hint.space ++ (hint.unitText ++ hint.after)), []⟩ := by
  have phrase : (word "try again in").run ⟨before, hint.fromPhrase, []⟩ =
      [⟨Regex.lastOf before hint.phrase, hint.behind, []⟩] := by
    unfold word fromPhrase
    rw [← hint.isPhrase]
    exact Regex.run_literal (sameLetter_map_lowerAscii hint.phrase)
  show ((word "try again in").run _).flatMap _ = _
  rw [phrase, List.flatMap_singleton]
  refine Regex.flatMap_plus hint.hasGap (isSpace_all hint.isGap) (fun point here => ?_)
    fun point there before behind => ?_
  · exact hint.isSpace_number here
  · show ((((Regex.plus (isDigit tables)).run _).flatMap _).map _).flatMap _ = []
    rw [Regex.run_plus_none]
    · rfl
    · rintro _ ⟨⟩
      exact isDigit_space (isSpace_all hint.isGap point there)

theorem run_unitPattern :
    (unitPattern tables).run ⟨before, hint.space ++ (hint.unitText ++ hint.after), groups⟩ =
      (Regex.seq (.group units) (.edge tables.isWord)).run
        ⟨Regex.lastOf before hint.space, hint.unitText ++ hint.after, groups⟩ :=
  Regex.flatMap_many (isSpace_all hint.isSpace) (fun _ here => (hint.head_unit here).2.2.2)
    fun point there _ _ => run_units_none _ (.inr (.inr (isSpace_all hint.isSpace point there)))

/-- **A hint that the expression takes is found whole.** -/
theorem run_taken (taken : hint.IsTaken tables) :
    ∃ last, ((waitPattern tables).run ⟨before, hint.fromPhrase, []⟩).head? =
      some ⟨last, hint.after.dropWhile tables.isWord,
        [numberText hint.whole hint.fraction, hint.unitWord tables]⟩ := by
  obtain ⟨digits, unit, same⟩ := taken
  rw [run_fromPhrase, run_number, if_pos digits, run_unitPattern, hint.run_unit same]
  exact ⟨_, rfl⟩

theorem run_untaken (untaken : ¬ hint.IsTaken tables) :
    (waitPattern tables).run ⟨before, hint.fromPhrase, []⟩ = [] := by
  rw [run_fromPhrase, run_number]
  split
  · rename_i digits
    rw [run_unitPattern]
    exact hint.run_unit_none fun unit same => untaken ⟨digits, unit, same⟩
  · rfl

/-- The phrase is the first one, so the search starts there. -/
theorem search_text : (waitPattern tables).search none hint.text =
    (waitPattern tables).search (Regex.lastOf none hint.front) hint.fromPhrase := by
  refine Regex.search_skip fun start behind letter isFront => ?_
  have noPhrase : (word "try again in").run
      ⟨Regex.lastOf none start, letter :: behind ++ hint.fromPhrase, []⟩ = [] :=
    Regex.run_literal_none fun phrase rest isText matched =>
      hint.isFirst start behind letter isFront ⟨phrase, rest, isText, matched⟩
  show ((word "try again in").run _).flatMap _ = []
  rw [noPhrase]
  rfl

/-- **A hint that the expression does not take is passed over,** and the search goes on behind its phrase. -/
theorem search_untaken (untaken : ¬ hint.IsTaken tables) : (waitPattern tables).search none hint.text =
    (waitPattern tables).search (Regex.lastOf none hint.phrase) hint.behind := by
  have isPhrase := hint.isPhrase
  have nonempty : hint.phrase ≠ [] := by
    intro empty
    rw [empty] at isPhrase
    exact absurd isPhrase (by decide)
  rw [search_text, ← Regex.lastOf_of_ne_nil nonempty (Regex.lastOf none hint.front)]
  refine Regex.search_skip fun start behind letter isLetter => ?_
  cases start with
  | nil =>
    have here := @run_untaken tables hint (Regex.lastOf none hint.front) untaken
    rw [fromPhrase, isLetter] at here
    exact here
  | cons first start =>
    -- no other letter of the phrase is the one that it starts with
    have other : sameLetter 116 letter = false := by
      have others : ∀ small ∈ (Utf8.points "try again in").tail, small ≠ 116 := by decide
      have there : PyText.lowerAscii letter ∈ (Utf8.points "try again in").tail := by
        rw [← isPhrase, isLetter]
        simp
      simpa [sameLetter] using others _ there
    show ((word "try again in").run _).flatMap _ = []
    rw [show (word "try again in").run _ = [] from Regex.run_literal_none fun text rest isText matched =>
      not_startsWithPhrase other ⟨text, rest, isText, matched⟩]
    rfl

end WaitHint

/-! ### What the planes read -/

variable {point : CodePoint} {text : PyText}

theorem filterMap_digit {tables : LetterTables}
    (digits : ∀ point ∈ text, isAsciiDigit point = true) :
    text.filterMap tables.digit = text.map (· - 48) := by
  induction text with
  | nil => rfl
  | cons point text ih =>
    rw [List.filterMap_cons, isDigit_of_isAsciiDigit (digits point List.mem_cons_self), List.map_cons,
      ih fun other there => digits other (List.mem_cons_of_mem _ there)]

theorem ne_point (digits : ∀ point ∈ text, isAsciiDigit point = true) :
    ∀ point ∈ text, (point != 46) = true := by
  intro point there
  rw [bne_iff_ne]
  rintro rfl
  exact absurd (digits 46 there) (by decide)

/-- `str.lower` of an ASCII letter, and of the letters that the expression takes for one. -/
def lowerLetter (point : CodePoint) : PyText := if point = 0x130 then [0x69, 0x307] else [PyText.lowerAscii point]

/-- `str.lower` goes letter by letter over the texts that the expression takes for units. -/
def LowersUnits (lower : PyText → PyText) : Prop :=
  ∀ text : PyText, (∀ point ∈ text, point < 128 ∨ point = 0x130 ∨ point = 0x131 ∨ point = 0x17F) →
    lower text = text.flatMap lowerLetter

theorem flatMap_lowerLetter (ascii : PyText.Ascii text) :
    text.flatMap lowerLetter = text.map PyText.lowerAscii := by
  rw [← List.flatMap_pure_eq_map]
  refine List.flatMap_congr fun point there => if_neg ?_
  rintro rfl
  exact absurd (ascii 0x130 there) (by decide)

namespace WaitHint

variable {tables : LetterTables} (hint : WaitHint)

theorem numberText_sides (stop : CodePoint → Bool) (digits : ∀ point ∈ hint.whole, stop point = true)
    (isPoint : stop 46 = false) :
    (numberText hint.whole hint.fraction).takeWhile stop = hint.whole ∧
      ((numberText hint.whole hint.fraction).dropWhile stop).drop 1 = hint.fraction.getD [] := by
  unfold numberText
  rw [List.takeWhile_append_of_pos digits, List.dropWhile_append_of_pos digits]
  cases hint.fraction with
  | none => simp
  | some fraction => simp [isPoint]

theorem exactFloat_numberText : exactFloat tables (numberText hint.whole hint.fraction) = hint.value := by
  obtain ⟨whole, fraction⟩ := hint.numberText_sides (· != 46) (ne_point hint.isWhole) rfl
  rw [exactFloat, whole, fraction, filterMap_digit hint.isWhole, filterMap_digit hint.isFraction]
  rfl

/-- What Python takes a unit for. -/
def pythonDuration : ℚ := if hint.unit.isLongMillisecond then hint.value * 60 else hint.duration

/-- The word of a unit that is taken is lowered in place, and no longer spelling starts it. -/
theorem lower_unitWord {lower : PyText → PyText} (lowers : LowersUnits lower) (taken : hint.IsTaken tables) :
    ∃ more, lower (hint.unitWord tables) = Utf8.points hint.unit.spelled ++ more ∧
      (hint.unit = .m → ∀ point ∈ more.head?, point ≠ 115) := by
  obtain ⟨_, unit, same⟩ := taken
  have letters : ∀ point ∈ hint.unitWord tables,
      point < 128 ∨ point = 0x130 ∨ point = 0x131 ∨ point = 0x17F := by
    have small := (spelled_small unit).2
    revert same small
    generalize Utf8.points unit.spelled = spelled
    generalize hint.unitWord tables = found
    intro same small
    induction same with
    | nil => nofun
    | @cons letter point _ _ here _ ih =>
      refine List.forall_mem_cons.mpr ⟨?_, ih fun other there => small other (List.mem_cons_of_mem _ there)⟩
      simp only [sameLetter, Bool.or_eq_true, Bool.and_eq_true, beq_iff_eq] at here
      rcases here with (ascii | ⟨_, variant⟩) | ⟨_, variant⟩
      · exact .inl (low_of_lowerAscii (ascii ▸ (small letter List.mem_cons_self).2))
      · exact .inr (variant.imp_right .inl)
      · exact .inr (.inr (.inr variant))
  have ascii : PyText.Ascii hint.unitText :=
    fun point there => low_of_lowerAscii (hint.lowerAscii_unit there).2
  refine ⟨(hint.after.takeWhile tables.isWord).flatMap lowerLetter, ?_, fun isM point here => ?_⟩
  · rw [lowers _ letters, unitWord, List.flatMap_append, flatMap_lowerLetter ascii, hint.isUnit]
  · rintro rfl
    have longest := hint.isLongest .ms
    have isUnit := hint.isUnit
    rw [List.map_append, isUnit, isM] at longest
    have single : hint.unitText.length = 1 := by
      rw [← List.length_map PyText.lowerAscii, isUnit, isM]
      decide
    rw [single] at longest
    revert here longest
    cases hint.after with
    | nil => exact nofun
    | cons first after =>
      rw [List.takeWhile_cons]
      split
      · rw [List.flatMap_cons, lowerLetter]
        split
        · rintro ⟨⟩
        · intro here
          have isS : PyText.lowerAscii first = 115 := by simpa using here
          rw [List.map_cons, isS]
          exact fun longest => absurd (longest (List.prefix_append [109, 115] _)) (by decide)
      · exact nofun

/-- **What Python makes of a hint that it takes**: its duration, except that a long spelling of milliseconds
starts like minutes. -/
theorem python_reads {lower : PyText → PyText} (lowers : LowersUnits lower) (taken : hint.IsTaken tables) :
    waitIn tables lower hint.text = max 1 ⌈hint.pythonDuration⌉ := by
  obtain ⟨last, found⟩ := @run_taken tables hint (Regex.lastOf none hint.front) taken
  obtain ⟨more, lowered, noS⟩ := hint.lower_unitWord lowers taken
  have seconds : secondsOf hint.value (Utf8.points hint.unit.spelled ++ more) = hint.pythonDuration := by
    revert noS
    unfold pythonDuration duration
    cases hint.unit with
    | m =>
      intro noS
      cases more with
      | nil => simp [secondsOf, WaitUnit.spelled, WaitUnit.duration, WaitUnit.isLongMillisecond, Utf8.points]
      | cons point more =>
        have other := (noS rfl point rfl).symm
        simp [secondsOf, WaitUnit.spelled, WaitUnit.duration, WaitUnit.isLongMillisecond, Utf8.points, other]
    | _ => simp [secondsOf, WaitUnit.spelled, WaitUnit.duration, WaitUnit.isLongMillisecond, Utf8.points,
        div_eq_mul_inv]
  rw [waitIn, search_text, Regex.search_here found]
  show max 1 ⌈secondsOf (exactFloat tables (numberText hint.whole hint.fraction))
    (lower (hint.unitWord tables))⌉ = _
  rw [exactFloat_numberText, lowered, seconds]

end WaitHint

theorem splitBehind_of_prefix {mark text : List CodePoint} (nonempty : mark ≠ []) :
    splitBehind mark (mark ++ text) = some text := by
  obtain ⟨first, rest, rfl⟩ := List.exists_cons_of_ne_nil nonempty
  show (if (first :: rest).isPrefixOf (first :: (rest ++ text)) then _ else _) = _
  rw [if_pos (by rw [List.isPrefixOf_iff_prefix]; exact List.prefix_append (first :: rest) text)]
  simp

theorem splitBehind_of_first {mark front text : List CodePoint} (nonempty : mark ≠ [])
    (earlier : ∀ start behind letter, front = start ++ letter :: behind →
      ¬ mark <+: letter :: behind ++ (mark ++ text)) :
    splitBehind mark (front ++ (mark ++ text)) = some text := by
  induction front with
  | nil => exact splitBehind_of_prefix nonempty
  | cons letter front ih =>
    show (if mark.isPrefixOf (letter :: (front ++ (mark ++ text))) then _ else _) = _
    rw [if_neg (by rw [List.isPrefixOf_iff_prefix]; exact earlier [] front letter rfl)]
    exact ih fun start behind other isFront => earlier (letter :: start) behind other (by rw [isFront]; rfl)

theorem lowerAscii_of_isWhitespace (space : isWhitespace point = true) :
    PyText.lowerAscii point = point := by
  unfold PyText.lowerAscii
  split
  · rename_i capital
    have low : point < 128 := lt_of_le_of_lt capital.2 (by decide)
    have white := isSpace_of_isWhitespace space
    rw [isSpace_small point low (le_trans (by decide) capital.1)] at white
    cases white
  · rfl

theorem lowerAscii_of_isDigit (digit : isAsciiDigit point = true) :
    PyText.lowerAscii point = point := by
  unfold PyText.lowerAscii
  split
  · rename_i capital
    exact absurd (le_trans capital.1 (isDigit_bounds digit).2) (by decide)
  · rfl

theorem map_lowerAscii_of_same (same : ∀ point ∈ text, PyText.lowerAscii point = point) :
    text.map PyText.lowerAscii = text :=
  (List.map_congr_left same).trans (List.map_id text)

theorem startsWithPhrase_of_begins
    (starts : Utf8.points "try again in" <+: text.map PyText.lowerAscii) : StartsWithPhrase text := by
  obtain ⟨rest, isText⟩ := starts
  obtain ⟨phrase, behind, rfl, isPhrase, _⟩ := List.map_eq_append_iff.mp isText.symm
  exact ⟨phrase, behind, rfl, isPhrase ▸ sameLetter_map_lowerAscii phrase⟩

namespace WaitHint

variable {tables : LetterTables} (hint : WaitHint)

theorem isNumber_numberText : ∀ point ∈ numberText hint.whole hint.fraction,
    (isAsciiDigit point || point == 46) = true := by
  intro point there
  rcases List.mem_append.mp there with whole | behind
  · rw [hint.isWhole point whole, Bool.true_or]
  · have digits := hint.isFraction
    revert behind digits
    cases hint.fraction with
    | none => exact nofun
    | some fraction =>
      intro behind digits
      rcases List.mem_cons.mp behind with rfl | fraction
      · rfl
      · rw [digits point fraction, Bool.true_or]

theorem lowered_numberText :
    (numberText hint.whole hint.fraction).map PyText.lowerAscii = numberText hint.whole hint.fraction := by
  refine map_lowerAscii_of_same fun point there => ?_
  rcases Bool.or_eq_true_iff.mp (hint.isNumber_numberText point there) with digit | isPoint
  · exact lowerAscii_of_isDigit digit
  · rw [eq_of_beq isPoint]
    rfl

theorem lowered_fromPhrase : hint.fromPhrase.map PyText.lowerAscii =
    Utf8.points "try again in" ++ (hint.gap ++ (numberText hint.whole hint.fraction ++
      (hint.space ++ (Utf8.points hint.unit.spelled ++ hint.after.map PyText.lowerAscii)))) := by
  have white : ∀ {text : PyText}, (∀ point ∈ text, isWhitespace point = true) →
      text.map PyText.lowerAscii = text :=
    fun all => map_lowerAscii_of_same fun point there => lowerAscii_of_isWhitespace (all point there)
  simp only [fromPhrase, behind, List.map_append, hint.isPhrase, white hint.isGap, white hint.isSpace, hint.isUnit,
    hint.lowered_numberText]

/-- **The front finds the hint.** -/
theorem splitBehind_hint :
    splitBehind (Utf8.points "try again in") (hint.text.map PyText.lowerAscii) = some (hint.gap ++
      (numberText hint.whole hint.fraction ++ (hint.space ++
        (Utf8.points hint.unit.spelled ++ hint.after.map PyText.lowerAscii)))) := by
  rw [text, List.map_append, lowered_fromPhrase]
  refine splitBehind_of_first (by decide) fun start behind letter isFront starts => ?_
  obtain ⟨start', rest', isFront', _, isRest⟩ := List.map_eq_append_iff.mp isFront
  obtain ⟨letter', behind', rfl, rfl, rfl⟩ := List.map_eq_cons_iff.mp isRest
  refine hint.isFirst start' behind' letter' isFront' (startsWithPhrase_of_begins ?_)
  show _ <+: (letter' :: behind' ++ hint.fromPhrase).map PyText.lowerAscii
  rw [List.map_append, lowered_fromPhrase, List.map_cons]
  exact starts

theorem isWhitespace_number {rest : PyText}
    (here : point ∈ (numberText hint.whole hint.fraction ++ rest).head?) : isWhitespace point = false := by
  have noSpace := hint.isSpace_number here
  rw [Bool.eq_false_iff] at noSpace ⊢
  exact fun white => noSpace (isSpace_of_isWhitespace white)

end WaitHint

theorem span_append {test : CodePoint → Bool} {text rest : PyText} (all : ∀ point ∈ text, test point = true)
    (stops : ∀ point ∈ rest.head?, test point = false) :
    (text ++ rest).takeWhile test = text ∧ (text ++ rest).dropWhile test = rest := by
  rw [List.takeWhile_append_of_pos all, List.dropWhile_append_of_pos all]
  cases rest with
  | nil => exact ⟨List.append_nil text, rfl⟩
  | cons point rest =>
    rw [List.takeWhile_cons, List.dropWhile_cons, if_neg (by simp [stops point rfl]),
      if_neg (by simp [stops point rfl]), List.append_nil]
    exact ⟨rfl, rfl⟩

theorem small_apart : ∀ point < 128, 97 ≤ point → point ≤ 122 →
    (isAsciiDigit point || point == 46) = false ∧ isWhitespace point = false := by decide

theorem white_apart (white : isWhitespace point = true) :
    (isAsciiDigit point || point == 46) = false := by
  rw [Bool.or_eq_false_iff]
  constructor
  · rw [Bool.eq_false_iff]
    intro digit
    have noSpace := isSpace_digit digit
    rw [isSpace_of_isWhitespace white] at noSpace
    cases noSpace
  · rw [beq_eq_false_iff_ne]
    rintro rfl
    exact absurd white (by decide)

theorem head_spelled {unit : WaitUnit} {after : PyText}
    (here : point ∈ (Utf8.points unit.spelled ++ after).head?) : 97 ≤ point ∧ point ≤ 122 := by
  obtain ⟨nonempty, small⟩ := spelled_small unit
  obtain ⟨first, rest, isSpelled⟩ := List.exists_cons_of_ne_nil nonempty
  rw [isSpelled] at here small
  cases here
  exact small point List.mem_cons_self

/-- The front decides the unit by its first letters, which no unit of another length of time has. -/
theorem front_unit (unit : WaitUnit) {after : PyText}
    (longest : ∀ other : WaitUnit, Utf8.points other.spelled <+: Utf8.points unit.spelled ++ after →
      (Utf8.points other.spelled).length ≤ (Utf8.points unit.spelled).length) (value : ℚ) :
    (if (Utf8.points "ms").isPrefixOf (Utf8.points unit.spelled ++ after) ||
          (Utf8.points "millisecond").isPrefixOf (Utf8.points unit.spelled ++ after) then
        some (exact.ceil (exact.divNat 1000 value))
      else if (Utf8.points "m").isPrefixOf (Utf8.points unit.spelled ++ after) then
        some (exact.ceil (exact.mulNat 60 value))
      else some (exact.ceil value)) = some (⌈value * unit.duration⌉ : ℚ) := by
  cases unit with
  | m =>
    have noLonger : ∀ other : WaitUnit, 1 < (Utf8.points other.spelled).length →
        (Utf8.points other.spelled).isPrefixOf (Utf8.points WaitUnit.m.spelled ++ after) = false := by
      intro other long
      rw [Bool.eq_false_iff]
      exact fun starts => absurd (longest other (List.isPrefixOf_iff_prefix.mp starts)) (not_le.mpr long)
    rw [show Utf8.points "ms" = Utf8.points WaitUnit.ms.spelled from rfl,
      show Utf8.points "millisecond" = Utf8.points WaitUnit.millisecond.spelled from rfl,
      noLonger .ms (by decide), noLonger .millisecond (by decide)]
    simp [WaitUnit.spelled, WaitUnit.duration, Utf8.points, exact]
  | _ => simp [WaitUnit.spelled, WaitUnit.duration, Utf8.points, exact, div_eq_mul_inv]

namespace WaitHint

variable {tables : LetterTables} (hint : WaitHint)

theorem parseNumber_numberText :
    parseNumber exact (numberText hint.whole hint.fraction) = some hint.value := by
  obtain ⟨whole, fraction⟩ := hint.numberText_sides isAsciiDigit hint.isWhole rfl
  have some_ : (hint.whole ++ hint.fraction.getD []).isEmpty = false :=
    List.isEmpty_eq_false_iff.mpr hint.hasDigit
  unfold parseNumber
  simp only [whole, fraction, List.all_eq_true.mpr hint.isFraction, some_, Bool.not_false, Bool.and_self,
    if_true]
  rfl

theorem number_ends (after : PyText) :
    ∀ point ∈ (hint.space ++ (Utf8.points hint.unit.spelled ++ after)).head?,
      (isAsciiDigit point || point == 46) = false := by
  intro point here
  cases isSpace : hint.space with
  | nil =>
    rw [isSpace] at here
    have small := head_spelled here
    exact (small_apart point (lt_of_le_of_lt small.2 (by decide)) small.1 small.2).1
  | cons first rest =>
    rw [isSpace] at here
    cases here
    exact white_apart (hint.isSpace point (by rw [isSpace]; simp))

/-- **What the front reads**: the duration of the hint. -/
theorem front_reads : frontRetryAfterSeconds hint.text = some (⌈hint.duration⌉ : ℚ) := by
  have longest := hint.isLongest
  rw [List.map_append, hint.isUnit, ← List.length_map PyText.lowerAscii, hint.isUnit] at longest
  generalize isAfter : hint.after.map PyText.lowerAscii = after at longest
  have gap : (hint.gap ++ (numberText hint.whole hint.fraction ++ (hint.space ++
      (Utf8.points hint.unit.spelled ++ after)))).dropWhile isWhitespace = _ :=
    (span_append hint.isGap fun point here => hint.isWhitespace_number here).2
  have numbers := span_append hint.isNumber_numberText (hint.number_ends after)
  have spaces : (hint.space ++ (Utf8.points hint.unit.spelled ++ after)).dropWhile isWhitespace = _ :=
    (span_append hint.isSpace fun point here => by
      have small := head_spelled here
      exact (small_apart point (lt_of_le_of_lt small.2 (by decide)) small.1 small.2).2).2
  have some_ : (numberText hint.whole hint.fraction).isEmpty = false := by
    rw [List.isEmpty_eq_false_iff]
    intro empty
    obtain ⟨whole, fraction⟩ := List.append_eq_nil_iff.mp empty
    have hasDigit := hint.hasDigit
    revert fraction hasDigit
    rw [whole]
    cases hint.fraction with
    | none => exact fun _ hasDigit => hasDigit rfl
    | some fraction => exact nofun
  unfold frontRetryAfterSeconds frontWaitIn
  rw [hint.splitBehind_hint, isAfter]
  simp only [Option.bind_eq_bind, Option.bind_some, gap, numbers.1, numbers.2, spaces, some_,
    hint.parseNumber_numberText]
  exact front_unit hint.unit longest hint.value

end WaitHint

/-- Sixty times a number and a thousandth of it are the same second up to a sixtieth. -/
theorem ceil_minutes_eq_iff {value : ℚ} :
    max 1 ⌈value * 60⌉ = max 1 ⌈value * (1 / 1000)⌉ ↔ value ≤ 1 / 60 := by
  constructor
  · intro same
    by_contra large
    have minutes : 1 < ⌈value * 60⌉ := Int.lt_ceil.mpr (by push_cast; linarith)
    rw [max_eq_right minutes.le] at same
    rcases le_total ⌈value * (1 / 1000)⌉ 1 with short | long
    · rw [max_eq_left short] at same
      omega
    · rw [max_eq_right long] at same
      have below : value * (1 / 1000) ≤ value * 60 - 1 := by
        have many : (1 : ℤ) < ⌈value * (1 / 1000)⌉ := same ▸ minutes
        have thousand := Int.lt_ceil.mp many
        push_cast at thousand
        linarith
      have fewer : ⌈value * (1 / 1000)⌉ ≤ ⌈value * 60⌉ - 1 :=
        (Int.ceil_mono below).trans (by rw [Int.ceil_sub_one])
      omega
  · intro small
    have minutes : ⌈value * 60⌉ ≤ 1 := Int.ceil_le.mpr (by push_cast; linarith)
    have milliseconds : ⌈value * (1 / 1000)⌉ ≤ 1 := Int.ceil_le.mpr (by push_cast; linarith)
    rw [max_eq_left minutes, max_eq_left milliseconds]

/-- **The planes read a hint as its duration, rounded up, exactly when** Python's expression takes it and
does not take milliseconds for minutes (which are the same second only up to a sixtieth), or when it leaves
the hint for a later one that asks for the same seconds. -/
theorem wait_hint_read_iff {tables : LetterTables} (runtime : PyRuntime) (lowers : LowersUnits runtime.lower)
    (hint : WaitHint) {details : PyText} (searched : waitHaystack runtime details = hint.text) :
    (retryAfterSeconds tables runtime details = max 1 ⌈hint.duration⌉ ∧
        frontRetryAfterSeconds hint.text = some (⌈hint.duration⌉ : ℚ)) ↔
      hint.IsTaken tables ∧ (hint.unit.isLongMillisecond = false ∨ hint.value ≤ 1 / 60) ∨
        ¬ hint.IsTaken tables ∧
          ∃ later, (waitPattern tables).search (Regex.lastOf none hint.phrase) hint.behind = some later ∧
            foundSeconds tables runtime.lower later = max 1 ⌈hint.duration⌉ := by
  rw [retryAfterSeconds, searched, and_iff_left hint.front_reads]
  by_cases taken : hint.IsTaken tables
  · simp only [taken, not_true_eq_false, true_and, false_and, or_false]
    rw [hint.python_reads lowers taken]
    unfold WaitHint.pythonDuration WaitHint.duration
    cases long : hint.unit.isLongMillisecond with
    | false => simp
    | true =>
      have thousandth : hint.unit.duration = 1 / 1000 := by
        revert long
        cases hint.unit <;> simp [WaitUnit.isLongMillisecond, WaitUnit.duration]
      rw [if_pos rfl, thousandth, ceil_minutes_eq_iff]
      simp
  · simp only [taken, not_false_eq_true, true_and, false_and, false_or]
    rw [waitIn, hint.search_untaken taken]
    cases (waitPattern tables).search (Regex.lastOf none hint.phrase) hint.behind with
    | none =>
      refine iff_of_false (fun zero => ?_) (by simp)
      have positive : (1 : ℤ) ≤ 0 := le_trans (le_max_left 1 ⌈hint.duration⌉) (le_of_eq zero.symm)
      exact absurd positive (by decide)
    | some later => simp

/-- Letters outside ASCII are no letters of words, but for the variants of two of them. -/
def asciiTables : LetterTables where
  digit point := if isAsciiDigit point then some (point - 48) else none
  isWord point :=
    isAsciiDigit point || 97 ≤ PyText.lowerAscii point && PyText.lowerAscii point ≤ 122 || point == 95 ||
      point == 0x130 || point == 0x131 || point == 0x17F
  digit_ascii _ _ := rfl
  digit_space point white := by
    rw [if_neg]
    intro digit
    rw [isSpace_digit digit] at white
    cases white
  isWord_ascii := by decide
  isWord_variants := by decide

/-- A runtime that reads no JSON. -/
def plainRuntime : PyRuntime where
  lower text := text.flatMap lowerLetter
  casefold text := text.flatMap lowerLetter
  lower_isFold := ⟨fun _ ascii => flatMap_lowerLetter ascii, fun _ _ => by simp [lowerLetter, PyText.lowerAscii]⟩
  casefold_isFold :=
    ⟨fun _ ascii => flatMap_lowerLetter ascii, fun _ _ => by simp [lowerLetter, PyText.lowerAscii]⟩
  jsonLoads _ := none
  literalEval _ := none

theorem plainRuntime_lowersUnits : LowersUnits plainRuntime.lower := fun _ _ => rfl

/-- What Python searches of a text without a message: `None`, and the text behind a space. -/
def plainHint (number unitText after : String) (unit : WaitUnit)
    (isUnit : (Utf8.points unitText).map PyText.lowerAscii = Utf8.points unit.spelled)
    (isNumber : Utf8.points number ≠ [] ∧ ∀ point ∈ Utf8.points number, isAsciiDigit point = true)
    (isLongest : ∀ other : WaitUnit, Utf8.points other.spelled <+:
        (Utf8.points unitText ++ Utf8.points after).map PyText.lowerAscii →
      (Utf8.points other.spelled).length ≤ (Utf8.points unitText).length) :
    WaitHint where
  front := Utf8.points "None Please "
  phrase := Utf8.points "Try again in"
  gap := [32]
  whole := Utf8.points number
  fraction := none
  space := []
  unit := unit
  unitText := Utf8.points unitText
  after := Utf8.points after
  isPhrase := by decide
  hasGap := by decide
  isGap := by decide
  isWhole := isNumber.2
  isFraction := nofun
  hasDigit := fun empty => isNumber.1 (List.append_eq_nil_iff.mp empty).1
  isSpace := nofun
  isUnit := isUnit
  isLongest := isLongest
  isFirst := by
    intro start behind letter isFront
    have others : ∀ letter ∈ Utf8.points "None Please ", sameLetter 116 letter = false := by decide
    exact not_startsWithPhrase (others letter (by rw [isFront]; simp))

def twentySeconds : WaitHint :=
  plainHint "20" "S" "." .s (by decide) (by decide) (by intro other; cases other <;> decide)

/-- A word that only starts like a unit. -/
def twentySlots : WaitHint :=
  plainHint "20" "s" "_retry" .s (by decide) (by decide) (by intro other; cases other <;> decide)

theorem wait_hint_read_iff_twenty :
    (retryAfterSeconds asciiTables plainRuntime (Utf8.points "Please Try again in 20S.") =
        max 1 ⌈twentySeconds.duration⌉ ∧
      frontRetryAfterSeconds twentySeconds.text = some (⌈twentySeconds.duration⌉ : ℚ)) ∧
    ¬ (retryAfterSeconds asciiTables plainRuntime (Utf8.points "Please Try again in 20s_retry") =
        max 1 ⌈twentySlots.duration⌉ ∧
      frontRetryAfterSeconds twentySlots.text = some (⌈twentySlots.duration⌉ : ℚ)) := by
  constructor
  · refine (wait_hint_read_iff plainRuntime plainRuntime_lowersUnits twentySeconds (by decide)).mpr
      (.inl ⟨⟨by decide, .s, ?_⟩, .inl rfl⟩)
    exact .cons (by decide) .nil
  · rw [wait_hint_read_iff plainRuntime plainRuntime_lowersUnits twentySlots (by decide)]
    rintro (⟨⟨_, unit, same⟩, _⟩ | ⟨_, later, found, _⟩)
    · have long : (Utf8.points unit.spelled).length = 7 := same.length_eq
      cases unit <;> revert same <;> revert long <;> decide
    · rw [show (waitPattern asciiTables).search (Regex.lastOf none twentySlots.phrase) twentySlots.behind =
        none by decide] at found
      cases found

def halfSecond : WaitHint :=
  plainHint "500" "milliseconds" "." .milliseconds (by decide) (by decide)
    (by intro other; cases other <;> decide)

theorem halfSecond_value : halfSecond.value = 500 := by
  show exactDecimal ((Utf8.points "500").map (· - 48)) [] = 500
  rw [show (Utf8.points "500").map (· - 48) = [5, 0, 0] by decide]
  norm_num [exactDecimal]

/-- Half a second in milliseconds: Python waits for more than eight hours. -/
theorem half_second_as_minutes :
    halfSecond.duration = 1 / 2 ∧
      retryAfterSeconds asciiTables plainRuntime (Utf8.points "Please Try again in 500milliseconds.") =
        30000 := by
  constructor
  · rw [WaitHint.duration, halfSecond_value]
    show (500 : ℚ) * (1 / 1000) = 1 / 2
    norm_num
  · have searched : waitHaystack plainRuntime (Utf8.points "Please Try again in 500milliseconds.") =
        halfSecond.text := by decide
    have taken : halfSecond.IsTaken asciiTables :=
      ⟨by decide, .milliseconds, halfSecond.isUnit ▸ sameLetter_map_lowerAscii halfSecond.unitText⟩
    rw [retryAfterSeconds, searched, halfSecond.python_reads plainRuntime_lowersUnits taken]
    show max 1 ⌈halfSecond.value * 60⌉ = 30000
    rw [halfSecond_value]
    norm_num

end UniApi.CrossPlane.WaitHints
