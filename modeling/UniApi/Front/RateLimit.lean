/-
**Rate limits in the front: rules of a text, and the windows of a bucket.**

Every rule has a record of each request that is admitted, also where several rules have one period.

* `parseLimit_shape`: what a text that is a rule is made of;
* `checkRules_admits`: what is checked before a request is admitted;
* `pushRules_records`: what is recorded of it.
-/

import Mathlib.Logic.Function.Basic
import UniApi.Front.Numbers
import UniApi.RateLimit.State

namespace UniApi.Front

open UniApi.Lib UniApi.RateLimit UniApi.Upstream

/-! ### Reading the rules -/

/-- `str::parse::<usize>`. -/
def parseUsize (text : List CodePoint) : Option ℕ :=
  let digits := if text.head? = some 43 then text.drop 1 else text
  if digits.isEmpty || !digits.all isAsciiDigit then none
  else
    let value := ofDigits (digits.map (· - 48))
    if value < 2 ^ 64 then some value else none

/-- The seconds of a period, and nothing for `tpr`. -/
def rateUnits : List (List CodePoint × Option ℕ) :=
  [(Utf8.points "s", some 1), (Utf8.points "sec", some 1), (Utf8.points "second", some 1),
    (Utf8.points "m", some 60), (Utf8.points "min", some 60), (Utf8.points "minute", some 60),
    (Utf8.points "h", some 3600), (Utf8.points "hr", some 3600), (Utf8.points "hour", some 3600),
    (Utf8.points "d", some 86400), (Utf8.points "day", some 86400),
    (Utf8.points "mo", some 2592000), (Utf8.points "month", some 2592000),
    (Utf8.points "y", some 31536000), (Utf8.points "year", some 31536000), (Utf8.points "tpr", none)]

/-- One rule of a text: its count and its seconds, or nothing where it is about tokens. -/
def parseLimit (configured : List CodePoint) : Option (Option (ℕ × ℕ)) := do
  let (count, period) ← splitOnce (trimPoints configured)
  let count ← parseUsize (trimPoints count)
  let seconds ← rateUnits.lookup ((trimPoints period).map PyText.lowerAscii)
  return seconds.map (count, ·)

/-- The rules of a text. -/
def parseLimits (raw : List CodePoint) : Option (List (ℕ × ℕ)) :=
  (((trimPoints raw).splitOn 44).mapM parseLimit).map (·.reduceOption)

/-- The rules without a configuration. -/
def defaultLimit : List CodePoint := Utf8.points "999999/min"

/-- The text of an object for a model: under its name, under the only part of its name that has one, or
the default. -/
def selectLimit (values : JsonMap) (model : Option Bytes) : Option (List CodePoint) :=
  let chosen : Option (Option Value) :=
    match model.bind values.get with
    | some exact => some (some exact)
    | none =>
      let matching := values.filter fun limit =>
        limit.1 != Utf8.lit "default" && model.any (containsBytes · limit.1)
      if 1 < matching.length then none
      else some ((matching.head?.map Prod.snd).or (values.get (Utf8.lit "default")))
  match chosen with
  | none => none
  | some (some (.string text)) => some (pyText text)
  | some (some _) => none
  | some none => some defaultLimit

/-- `parse_rate_limits`. -/
def parseRateLimits (value : Option Value) (model : Option Bytes) : Option (List (ℕ × ℕ)) :=
  match value with
  | none | some .null => parseLimits defaultLimit
  | some (.string text) => parseLimits (pyText text)
  | some (.object values) => (selectLimit values model).bind parseLimits
  | some _ => none

/-! ### Admission -/

/-- The windows of the buckets, by the seconds of a rule. -/
abbrev ClientWindows := Bytes × ℕ → List ℚ

section Admission

variable (now : ℚ) (bucket : Bytes)

/-- The check of the rules in their order, which ends at the first window that is full. -/
def checkRules : List (ℕ × ℕ) → ClientWindows → Bool × ClientWindows
  | [], windows => (true, windows)
  | (limit, seconds) :: rules, windows =>
    let queue := (windows (bucket, seconds)).dropWhile fun started => (seconds : ℚ) ≤ now - started
    let pruned := Function.update windows (bucket, seconds) queue
    if limit ≤ queue.length then (false, pruned) else checkRules rules pruned

/-- A record for each rule. -/
def pushRules (rules : List (ℕ × ℕ)) (windows : ClientWindows) : ClientWindows :=
  rules.foldl (fun windows rule =>
    Function.update windows (bucket, rule.2) (windows (bucket, rule.2) ++ [now])) windows

/-- `admit_rate`. -/
def admitRate (rules : List (ℕ × ℕ)) (windows : ClientWindows) : Bool × ClientWindows :=
  let checked := checkRules now bucket rules windows
  if checked.1 then (true, pushRules now bucket rules checked.2) else (false, checked.2)

end Admission

/-! ### What a rule is made of -/

theorem letters_trimPoints (text : List CodePoint) : letters (trimPoints text) = letters text := by
  have white : ∀ {point : CodePoint}, isWhitespace point = true → PyText.isSpace point = true := by
    intro point white
    unfold isWhitespace at white
    unfold PyText.isSpace
    simp only [Bool.or_eq_true, Bool.and_eq_true, decide_eq_true_eq, beq_iff_eq] at white ⊢
    grind
  have dropped : ∀ part : List CodePoint, letters (part.dropWhile isWhitespace) = letters part := by
    intro part
    unfold letters
    induction part with
    | nil => rfl
    | cons point rest ih =>
      cases space : isWhitespace point with
      | true =>
        rw [List.dropWhile_cons_of_pos space, ih, List.filter_cons_of_neg (by simp [white space])]
      | false => rw [List.dropWhile_cons_of_neg (by simp [space])]
  have reversed : ∀ part : List CodePoint, letters part.reverse = (letters part).reverse :=
    fun _ => List.filter_reverse
  rw [trimPoints, reversed, dropped, reversed, List.reverse_reverse, dropped]

theorem parseUsize_shape {text : List CodePoint} {value : ℕ} (parsed : parseUsize text = some value) :
    ∃ sign digits, text = sign ++ digits ∧ (sign = [] ∨ sign = [43]) ∧
      (∀ point ∈ digits, isAsciiDigit point = true) ∧ value = ofDigits (digits.map (· - 48)) := by
  unfold parseUsize at parsed
  dsimp only at parsed
  have made : ∀ digits : List CodePoint, (if (digits.isEmpty || !digits.all isAsciiDigit) = true then none
      else if ofDigits (digits.map (· - 48)) < 2 ^ 64 then some (ofDigits (digits.map (· - 48)))
        else none) = some value →
      (∀ point ∈ digits, isAsciiDigit point = true) ∧ value = ofDigits (digits.map (· - 48)) := by
    intro digits taken
    split at taken
    · cases taken
    · rename_i valid
      split at taken
      · cases taken
        rw [Bool.or_eq_true, not_or, Bool.not_eq_true', Bool.not_eq_false] at valid
        exact ⟨List.all_eq_true.mp valid.2, rfl⟩
      · cases taken
  by_cases signed : text.head? = some 43
  · rw [if_pos signed] at parsed
    obtain ⟨digits, isValue⟩ := made _ parsed
    obtain ⟨rest, rfl⟩ := List.head?_eq_some_iff.mp signed
    exact ⟨[43], rest, rfl, .inr rfl, digits, isValue⟩
  · rw [if_neg signed] at parsed
    obtain ⟨digits, isValue⟩ := made _ parsed
    exact ⟨[], text, rfl, .inl rfl, digits, isValue⟩

theorem rateUnits_eq : rateUnits =
    timeUnits.map fun unit => (unit.1, if unit.2 < 0 then none else some unit.2.toNat) := rfl

theorem rateUnits_lookup (unit : List CodePoint) :
    rateUnits.lookup unit =
      (timeUnits.lookup unit).map fun period => if period < 0 then none else some period.toNat := by
  rw [rateUnits_eq]
  induction timeUnits with
  | nil => rfl
  | cons first rest ih =>
    rw [List.map_cons, List.lookup_cons, List.lookup_cons, ih]
    cases unit == first.1 <;> rfl

theorem not_isSpace_of_lowerAscii {point : CodePoint}
    (letter : isUnitLetter (PyText.lowerAscii point) = true) : PyText.isSpace point = false := by
  unfold PyText.lowerAscii at letter
  by_cases upper : 65 ≤ point ∧ point ≤ 90
  · unfold PyText.isSpace
    simp only [Bool.or_eq_false_iff, Bool.and_eq_false_iff, decide_eq_false_iff_not,
      beq_eq_false_iff_ne]
    grind
  · rw [if_neg upper] at letter
    exact not_isSpace_of_isUnitLetter letter

/-- The letters of a unit are no white space, whatever its case is. -/
theorem letters_unit {unit : List CodePoint} {seconds : Option ℕ}
    (known : rateUnits.lookup (unit.map PyText.lowerAscii) = some seconds) : letters unit = unit := by
  rw [rateUnits_lookup] at known
  obtain ⟨period, inTable, -⟩ := Option.map_eq_some_iff.mp known
  refine List.filter_eq_self.mpr fun point member => ?_
  rw [Bool.not_eq_true']
  exact not_isSpace_of_lowerAscii
    (timeUnits_letters inTable _ (List.mem_map_of_mem member))

theorem letters_number {sign digits : List CodePoint} (isSign : sign = [] ∨ sign = [43])
    (areDigits : ∀ point ∈ digits, isAsciiDigit point = true) :
    letters (sign ++ digits) = sign ++ digits := by
  refine List.filter_eq_self.mpr fun point member => ?_
  rw [Bool.not_eq_true']
  rcases List.mem_append.mp member with inSign | inDigits
  · rcases isSign with rfl | rfl
    · cases inSign
    · rw [List.mem_singleton.mp inSign]
      decide
  · have digit := areDigits point inDigits
    unfold isAsciiDigit at digit
    unfold PyText.isSpace
    simp only [Bool.and_eq_true, decide_eq_true_eq] at digit
    simp only [Bool.or_eq_false_iff, Bool.and_eq_false_iff, decide_eq_false_iff_not,
      beq_eq_false_iff_ne]
    grind

theorem eq_of_splitOnce {text count period : List CodePoint}
    (isSplit : splitOnce text = some (count, period)) : text = count ++ 47 :: period := by
  unfold splitOnce at isSplit
  split at isSplit
  · rename_i stroke
    obtain ⟨before, behind, rfl, first⟩ := List.eq_append_cons_of_mem (List.contains_iff_mem.mp stroke)
    have passes : ∀ point ∈ before, (point != 47) = true :=
      fun point member => bne_iff_ne.mpr fun same => first (same ▸ member)
    rw [List.takeWhile_append_of_pos passes, List.dropWhile_append_of_pos passes] at isSplit
    cases isSplit
    rw [List.takeWhile_cons_of_neg (by decide), List.append_nil, List.dropWhile_cons_of_neg (by decide)]
    rfl
  · cases isSplit

/-- **What a rule is made of**: a number, a stroke and a unit in any case, with white space around each. -/
theorem parseLimit_shape {text : List CodePoint} {limit : Option (ℕ × ℕ)}
    (parsed : parseLimit text = some limit) :
    ∃ sign digits unit seconds, letters text = sign ++ digits ++ 47 :: unit ∧
      (sign = [] ∨ sign = [43]) ∧ (∀ point ∈ digits, isAsciiDigit point = true) ∧
      rateUnits.lookup (unit.map PyText.lowerAscii) = some seconds ∧
      limit = seconds.map (ofDigits (digits.map (· - 48)), ·) := by
  unfold parseLimit at parsed
  obtain ⟨⟨count, period⟩, isSplit, parsed⟩ := Option.bind_eq_some_iff.mp parsed
  obtain ⟨value, isValue, parsed⟩ := Option.bind_eq_some_iff.mp parsed
  obtain ⟨seconds, known, parsed⟩ := Option.bind_eq_some_iff.mp parsed
  cases parsed
  obtain ⟨sign, digits, isCount, isSign, areDigits, rfl⟩ := parseUsize_shape isValue
  refine ⟨sign, digits, trimPoints period, seconds, ?_, isSign, areDigits, known, rfl⟩
  calc letters text = letters (trimPoints text) := (letters_trimPoints text).symm
    _ = letters count ++ letters (47 :: period) := by
      rw [eq_of_splitOnce isSplit]
      exact List.filter_append _ _
    _ = sign ++ digits ++ 47 :: letters period := by
      rw [← letters_trimPoints count, isCount, letters_number isSign areDigits]
      rfl
    _ = sign ++ digits ++ 47 :: trimPoints period := by
      rw [← letters_trimPoints period, letters_unit known]

/-! ### What a check and a record do to the windows -/

section Windows

variable {now : ℚ} {bucket : Bytes}

theorem dropStarted_eq (window : List ℚ) (seconds : ℕ) :
    (window.dropWhile fun started => (seconds : ℚ) ≤ now - started) =
      window.dropWhile (· ≤ now - (seconds : ℚ)) := by
  congr 1
  funext started
  exact decide_eq_decide.mpr le_sub_comm

/-- **A check keeps what counts**: it only drops records that left their window. -/
theorem checkRules_keeps (rules : List (ℕ × ℕ)) (windows : ClientWindows) (key : Bytes × ℕ) :
    ((checkRules now bucket rules windows).2 key).Sublist (windows key) ∧
      ∀ instant, now - (key.2 : ℚ) ≤ instant →
        recordsAfter ((checkRules now bucket rules windows).2 key) instant =
          recordsAfter (windows key) instant := by
  induction rules generalizing windows with
  | nil => exact ⟨List.Sublist.refl _, fun _ _ => rfl⟩
  | cons rule rules ih =>
    obtain ⟨limit, seconds⟩ := rule
    have pruned : (Function.update windows (bucket, seconds)
          ((windows (bucket, seconds)).dropWhile fun started => (seconds : ℚ) ≤ now - started)
            key).Sublist (windows key) ∧
        ∀ instant, now - (key.2 : ℚ) ≤ instant →
          recordsAfter (Function.update windows (bucket, seconds)
            ((windows (bucket, seconds)).dropWhile fun started => (seconds : ℚ) ≤ now - started) key)
              instant = recordsAfter (windows key) instant := by
      by_cases same : key = (bucket, seconds)
      · subst same
        rw [Function.update_self, dropStarted_eq]
        exact ⟨List.dropWhile_sublist _, fun instant within => recordsAfter_dropWhile _ within⟩
      · rw [Function.update_of_ne same]
        exact ⟨List.Sublist.refl _, fun _ _ => rfl⟩
    rw [checkRules]
    split
    · exact pruned
    · obtain ⟨sublist, counts⟩ := ih (Function.update windows (bucket, seconds) _)
      exact ⟨sublist.trans pruned.1, fun instant within =>
        (counts instant within).trans (pruned.2 instant within)⟩

/-- **A request is admitted** where no window of its rules is full. -/
theorem checkRules_admits (rules : List (ℕ × ℕ)) {windows : ClientWindows}
    (ordered : ∀ key, (windows key).Pairwise (· ≤ ·)) :
    (checkRules now bucket rules windows).1 = true ↔
      ∀ rule ∈ rules, recordsAfter (windows (bucket, rule.2)) (now - (rule.2 : ℚ)) < rule.1 := by
  induction rules generalizing windows with
  | nil => exact ⟨fun _ rule member => absurd member List.not_mem_nil, fun _ => rfl⟩
  | cons rule rules ih =>
    obtain ⟨limit, seconds⟩ := rule
    rw [checkRules, List.forall_mem_cons]
    dsimp only
    rw [dropStarted_eq, length_dropWhile (ordered _)]
    split
    · rename_i full
      exact ⟨fun no => absurd no Bool.false_ne_true, fun all => absurd all.1 (Nat.not_lt.mpr full)⟩
    · rename_i room
      rw [ih]
      · rw [and_iff_right (Nat.not_le.mp room)]
        refine forall₂_congr fun rule _ => ?_
        by_cases same : rule.2 = seconds
        · rw [same, Function.update_self, recordsAfter_dropWhile _ le_rfl]
        · rw [Function.update_of_ne fun key => same (Prod.mk.inj key).2]
      · intro key
        by_cases same : key = (bucket, seconds)
        · subst same
          rw [Function.update_self]
          exact (ordered _).sublist (List.dropWhile_sublist _)
        · rw [Function.update_of_ne same]
          exact ordered key

/-- **Every rule has its own record**, also where several rules have one period. -/
theorem pushRules_records (rules : List (ℕ × ℕ)) (windows : ClientWindows) (seconds : ℕ)
    (instant : ℚ) :
    recordsAfter (pushRules now bucket rules windows (bucket, seconds)) instant =
      recordsAfter (windows (bucket, seconds)) instant +
        (rules.countP (·.2 = seconds)) * (if instant < now then 1 else 0) := by
  unfold pushRules
  induction rules generalizing windows with
  | nil => rw [List.foldl_nil, List.countP_nil, Nat.zero_mul, Nat.add_zero]
  | cons rule rules ih =>
    rw [List.foldl_cons, ih, List.countP_cons]
    by_cases same : rule.2 = seconds
    · rw [same, Function.update_self]
      unfold recordsAfter
      rw [List.countP_append, List.countP_singleton]
      simp only [decide_true, if_true, decide_eq_true_eq, Nat.add_mul, Nat.one_mul]
      omega
    · rw [Function.update_of_ne fun key => same (Prod.mk.inj key).2.symm]
      simp only [same, decide_false, Bool.false_eq_true, if_false, Nat.add_zero]

theorem admitRate_fst (rules : List (ℕ × ℕ)) (windows : ClientWindows) :
    (admitRate now bucket rules windows).1 = (checkRules now bucket rules windows).1 := by
  unfold admitRate
  dsimp only
  split
  · rename_i admitted
    exact admitted.symm
  · rename_i limited
    exact (Bool.eq_false_iff.mpr limited).symm

/-- A request that is admitted is recorded after the check. -/
theorem admitRate_snd (rules : List (ℕ × ℕ)) (windows : ClientWindows) :
    (admitRate now bucket rules windows).2 =
      if (admitRate now bucket rules windows).1 = true
      then pushRules now bucket rules (checkRules now bucket rules windows).2
      else (checkRules now bucket rules windows).2 := by
  rw [admitRate_fst, admitRate]
  split <;> rfl

theorem pushRules_ordered (rules : List (ℕ × ℕ)) {windows : ClientWindows}
    (ordered : ∀ key, OrderedUntil now (windows key)) (key : Bytes × ℕ) :
    OrderedUntil now (pushRules now bucket rules windows key) := by
  unfold pushRules
  induction rules generalizing windows with
  | nil => exact ordered key
  | cons rule rules ih =>
    refine ih fun other => ?_
    dsimp only
    by_cases same : other = (bucket, rule.2)
    · subst same
      rw [Function.update_self]
      exact (ordered _).record
    · rw [Function.update_of_ne same]
      exact ordered other

end Windows

end UniApi.Front
