/-
**Rate limits of a client or a key: the rules, and which of them hold for a model.**

A rule is a count and a period. Rules of one text hold together, and the rules of a model are those under
its name, else those under a part of its name, else the default.

* `parseRule_shape`: what a text that is a rule is made of.
-/

import UniApi.Upstream.ResponsesErrors

namespace UniApi.RateLimit

open UniApi.Lib UniApi.Front UniApi.Upstream

/-- A rule. The count is a run of digits, and a period that is not positive bounds tokens instead. -/
structure RateLimitRule where
  count : ℕ
  periodSeconds : ℤ
  deriving DecidableEq

/-- The key of the rules that hold without others. -/
def defaultKey : PyText := Utf8.points "default"

/-- `_parse_rules(DEFAULT_RATE_LIMIT)`. -/
def defaultRules : List RateLimitRule := [⟨999999, 60⟩]

structure RateLimitPolicy where
  rulesByModel : List (PyText × List RateLimitRule)
  deriving DecidableEq

/-- A model that is missing or empty. -/
def modelKey (model : Option PyText) : PyText :=
  match model with
  | none | some [] => defaultKey
  | some (first :: rest) => first :: rest

namespace RateLimitPolicy

/-- The rules under the default key. -/
def fallback (policy : RateLimitPolicy) : List RateLimitRule :=
  (policy.rulesByModel.lookup defaultKey).getD defaultRules

/-- The rules of a model. -/
def rulesFor (policy : RateLimitPolicy) (model : Option PyText) : List RateLimitRule :=
  match model with
  | none | some [] => policy.fallback
  | some model =>
    match policy.rulesByModel.lookup model with
    | some rules => rules
    | none =>
      match policy.rulesByModel.find? fun limit => limit.1 ≠ defaultKey && isSubstring limit.1 model with
      | some limit => limit.2
      | none => policy.fallback

end RateLimitPolicy

/-- The periods in which requests are counted. -/
def positivePeriods (rules : List RateLimitRule) : List ℤ :=
  (rules.map (·.periodSeconds)).filter (0 < ·)

theorem mem_positivePeriods {rules : List RateLimitRule} {period : ℤ} :
    period ∈ positivePeriods rules ↔ 0 < period ∧ ∃ rule ∈ rules, rule.periodSeconds = period := by
  unfold positivePeriods
  rw [List.mem_filter, List.mem_map, decide_eq_true_eq]
  exact and_comm

/-! ### Reading a policy -/

/-- The tables behind `\d`, `int(..)` and `\w`. -/
structure LimitTables where
  digit : CodePoint → Option ℕ
  digit_ascii : ∀ point < 128, digit point =
    if 48 ≤ point ∧ point ≤ 57 then some (point - 48) else none
  digit_space : ∀ point, PyText.isSpace point = true → digit point = none
  word : CodePoint → Bool

/-- The value of an ASCII digit. -/
def asciiDigit (point : CodePoint) : Option ℕ :=
  if 48 ≤ point ∧ point ≤ 57 then some (point - 48) else none

theorem asciiDigit_ascii (point : CodePoint) (_ascii : point < 128) : asciiDigit point =
    if 48 ≤ point ∧ point ≤ 57 then some (point - 48) else none := rfl

theorem asciiDigit_space (point : CodePoint) (space : PyText.isSpace point = true) :
    asciiDigit point = none := by
  refine if_neg fun range => ?_
  unfold PyText.isSpace at space
  simp only [Bool.or_eq_true, Bool.and_eq_true, decide_eq_true_eq, beq_iff_eq] at space
  grind

/-- Tables in which only ASCII has digits and letters. -/
def LimitTables.ascii : LimitTables where
  digit := asciiDigit
  digit_ascii := asciiDigit_ascii
  digit_space := asciiDigit_space
  word point := (48 ≤ point && point ≤ 57) || (65 ≤ point && point ≤ 90) || point == 95 ||
    (97 ≤ point && point ≤ 122)

/-- `_TIME_UNITS`. -/
def timeUnits : List (PyText × ℤ) :=
  [(Utf8.points "s", 1), (Utf8.points "sec", 1), (Utf8.points "second", 1),
    (Utf8.points "m", 60), (Utf8.points "min", 60), (Utf8.points "minute", 60),
    (Utf8.points "h", 3600), (Utf8.points "hr", 3600), (Utf8.points "hour", 3600),
    (Utf8.points "d", 86400), (Utf8.points "day", 86400),
    (Utf8.points "mo", 2592000), (Utf8.points "month", 2592000),
    (Utf8.points "y", 31536000), (Utf8.points "year", 31536000), (Utf8.points "tpr", -1)]

/-- The number of a run of digits. -/
def ofDigits (digits : List ℕ) : ℕ := digits.foldl (fun value digit => 10 * value + digit) 0

section Parsing

variable (tables : LimitTables)

/-- One rule of a text: `^(\d+)/(\w+)$` on what is left of it between white space, with a unit of the
table. A number of more than 4300 digits is not converted. -/
def parseRule (text : PyText) : Option RateLimitRule :=
  let limit := PyText.strip text
  let countText := limit.takeWhile fun point => (tables.digit point).isSome
  match limit.dropWhile fun point => (tables.digit point).isSome with
  | 47 :: unit =>
    if countText.isEmpty || unit.isEmpty || !unit.all tables.word || 4300 < countText.length then none
    else
      (timeUnits.lookup unit).map fun period => ⟨ofDigits (countText.filterMap tables.digit), period⟩
  | _ => none

/-- `_parse_rules` of a string. -/
def parseRules (text : PyText) : Option (List RateLimitRule) :=
  (text.splitOn 44).mapM (parseRule tables)

/-- `_parse_rules`. -/
def parseRulesValue : Value → Option (List RateLimitRule)
  | .string text => parseRules tables (pyText text)
  | _ => none

/-- `RateLimitPolicy.from_config`, which raises where a text has no rules. -/
def RateLimitPolicy.fromConfig : Value → Option RateLimitPolicy
  | .string text => (parseRules tables (pyText text)).map fun rules => ⟨[(defaultKey, rules)]⟩
  | .object models =>
    (models.mapM fun (limit : Bytes × Value) =>
      (parseRulesValue tables limit.2).map fun rules => (pyText limit.1, rules)).map (⟨·⟩)
  | _ => some ⟨[(defaultKey, defaultRules)]⟩

end Parsing

/-! ### What a rule is made of -/

/-- The letters of a text that are no white space. -/
def letters (text : PyText) : PyText := text.filter (!PyText.isSpace ·)

theorem letters_strip (text : PyText) : letters (PyText.strip text) = letters text := by
  have dropped : ∀ part : PyText, letters (part.dropWhile PyText.isSpace) = letters part := by
    intro part
    unfold letters
    induction part with
    | nil => rfl
    | cons point rest ih =>
      cases space : PyText.isSpace point with
      | true => rw [List.dropWhile_cons_of_pos space, ih, List.filter_cons_of_neg (by simp [space])]
      | false => rw [List.dropWhile_cons_of_neg (by simp [space])]
  have reversed : ∀ part : PyText, letters part.reverse = (letters part).reverse :=
    fun _ => List.filter_reverse
  rw [PyText.strip, reversed, dropped, reversed, List.reverse_reverse, dropped]

/-- A letter of a unit. -/
def isUnitLetter (point : CodePoint) : Bool := 97 ≤ point && point ≤ 122

theorem timeUnits_letters {unit : PyText} {period : ℤ} (known : timeUnits.lookup unit = some period) :
    ∀ point ∈ unit, isUnitLetter point = true := by
  have all : ∀ entry ∈ timeUnits, entry.1.all isUnitLetter = true := by decide
  obtain ⟨before, after, isSplit, -⟩ := List.lookup_eq_some_iff.mp known
  have member : (unit, period) ∈ timeUnits := by
    rw [isSplit]
    exact List.mem_append_right _ List.mem_cons_self
  exact List.all_eq_true.mp (all _ member)

theorem not_isSpace_of_isUnitLetter {point : CodePoint} (letter : isUnitLetter point = true) :
    PyText.isSpace point = false := by
  unfold isUnitLetter at letter
  unfold PyText.isSpace
  simp only [Bool.and_eq_true, decide_eq_true_eq] at letter
  simp only [Bool.or_eq_false_iff, Bool.and_eq_false_iff, decide_eq_false_iff_not, beq_eq_false_iff_ne]
  have range : 97 ≤ point ∧ point ≤ 122 := letter
  grind

/-- **What a rule is made of**: digits, a stroke and a unit, with white space around them. -/
theorem parseRule_shape {tables : LimitTables} {text : PyText} {rule : RateLimitRule}
    (parsed : parseRule tables text = some rule) :
    ∃ count unit, letters text = count ++ 47 :: unit ∧
      (∀ point ∈ count, (tables.digit point).isSome = true) ∧
      timeUnits.lookup unit = some rule.periodSeconds ∧
      rule.count = ofDigits (count.filterMap tables.digit) := by
  unfold parseRule at parsed
  dsimp only at parsed
  split at parsed
  · rename_i unit isRest
    split at parsed
    · cases parsed
    · obtain ⟨period, known, rfl⟩ := Option.map_eq_some_iff.mp parsed
      have digits : ∀ point ∈ (PyText.strip text).takeWhile fun point => (tables.digit point).isSome,
          (tables.digit point).isSome = true :=
        fun point member => List.mem_takeWhile_imp (p := fun point => (tables.digit point).isSome) member
      refine ⟨_, unit, ?_, digits, known, rfl⟩
      have whole := List.takeWhile_append_dropWhile (l := PyText.strip text)
        (p := fun point => (tables.digit point).isSome)
      rw [isRest] at whole
      rw [← letters_strip]
      conv_lhs => rw [← whole]
      refine List.filter_eq_self.mpr fun point member => ?_
      rw [Bool.not_eq_true']
      rcases List.mem_append.mp member with inCount | isStroke
      · rw [Bool.eq_false_iff]
        intro space
        have isDigit := digits point inCount
        rw [tables.digit_space point space] at isDigit
        cases isDigit
      · rcases List.mem_cons.mp isStroke with rfl | inUnit
        · decide
        · exact not_isSpace_of_isUnitLetter (timeUnits_letters known point inUnit)
  · cases parsed

end UniApi.RateLimit
