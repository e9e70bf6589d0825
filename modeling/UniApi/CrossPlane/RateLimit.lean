/-
**The two planes on the rate limit of a client.**

Both read the rules of one text alike, where both accept it. The front has a record of a request for each
rule, the Python plane one for each period: where rules share a period, the front counts a request as
often as there are rules with that period.

* `parsed_alike`: the rules of the front are those of the Python plane that are not about tokens;
* `alike_step`: a request that no repeated period tells apart is answered alike, and keeps the windows
  alike;
* `rate_limits_agree_iff`: the planes admit the same requests if and only if there are only such requests;
* `repeated_period_differs`: two equal rules, and two requests.
-/

import Mathlib.Data.List.Nodup
import Mathlib.Data.List.ReduceOption
import UniApi.Front.RateLimit

namespace UniApi.CrossPlane

open UniApi.Lib UniApi.Front UniApi.RateLimit UniApi.Upstream

/-! ### Reading a text -/

/-- The rules of the Python plane as those of the front. -/
def countedRules (rules : List RateLimitRule) : List (ℕ × ℕ) :=
  (rules.filter fun rule => 0 < rule.periodSeconds).map fun rule =>
    (rule.count, rule.periodSeconds.toNat)

theorem letters_splitOn (text : PyText) :
    (text.splitOn 44).map letters = (letters text).splitOn 44 := by
  induction text with
  | nil => rfl
  | cons point rest ih =>
    rw [List.splitOn_cons_eq_if_modifyHead]
    by_cases comma : point = 44
    · subst comma
      have kept : letters (44 :: rest) = 44 :: letters rest := List.filter_cons_of_pos (by decide)
      rw [kept, List.splitOn_cons_eq_if_modifyHead, if_pos (beq_self_eq_true _),
        if_pos (beq_self_eq_true _), List.map_cons, ih]
      rfl
    · have notComma : ¬ (point == 44) = true := fun same => comma (beq_iff_eq.mp same)
      rw [if_neg notComma]
      obtain ⟨first, later, parts⟩ : ∃ first later, rest.splitOn 44 = first :: later :=
        List.exists_cons_of_ne_nil (List.splitOn_ne_nil 44 rest)
      rw [parts, List.map_cons] at ih
      rw [parts, List.modifyHead_cons, List.map_cons]
      cases space : PyText.isSpace point with
      | true =>
        have dropped : ∀ behind, letters (point :: behind) = letters behind :=
          fun behind => List.filter_cons_of_neg (by simp [space])
        rw [dropped, dropped, ih]
      | false =>
        have kept : ∀ behind, letters (point :: behind) = point :: letters behind :=
          fun behind => List.filter_cons_of_pos (by simp [space])
        rw [kept, kept, List.splitOn_cons_eq_if_modifyHead, if_neg notComma, ← ih,
          List.modifyHead_cons]

/-- The parts of the text that the front reads have the letters of those that Python reads. -/
theorem parts_alike (text : PyText) :
    ((trimPoints text).splitOn 44).map letters = (text.splitOn 44).map letters := by
  rw [letters_splitOn, letters_splitOn, letters_trimPoints]

theorem timeUnits_period {unit : PyText} {period : ℤ} (known : timeUnits.lookup unit = some period) :
    period < 0 ∨ 0 < period := by
  have all : ∀ entry ∈ timeUnits.map Prod.snd, entry < 0 ∨ 0 < entry := by decide
  obtain ⟨before, after, isSplit, -⟩ := List.lookup_eq_some_iff.mp known
  refine all period (List.mem_map_of_mem (f := Prod.snd) (a := (unit, period)) ?_)
  rw [isSplit]
  exact List.mem_append_right _ List.mem_cons_self

theorem rulesFor_default (rules : List RateLimitRule) (model : Option PyText) :
    RateLimitPolicy.rulesFor ⟨[(defaultKey, rules)]⟩ model = rules := by
  have fallback : RateLimitPolicy.fallback ⟨[(defaultKey, rules)]⟩ = rules := by
    rw [RateLimitPolicy.fallback, List.lookup_cons_self]
    rfl
  unfold RateLimitPolicy.rulesFor
  split
  · exact fallback
  · exact fallback
  · rename_i name _
    rw [List.lookup_cons]
    cases isDefault : name == defaultKey with
    | true => rfl
    | false => exact fallback

section Parsing

variable {tables : LimitTables}

theorem digit_alike {digits : List CodePoint}
    (areDigits : ∀ point ∈ digits, isAsciiDigit point = true) :
    digits.filterMap tables.digit = digits.map (· - 48) := by
  rw [← List.filterMap_eq_map]
  refine List.filterMap_congr fun point member => ?_
  have range := areDigits point member
  unfold isAsciiDigit at range
  rw [Bool.and_eq_true, decide_eq_true_eq, decide_eq_true_eq] at range
  rw [tables.digit_ascii point (lt_of_le_of_lt range.2 (by decide)), if_pos range]
  rfl

/-- **One rule**, where both planes accept its text. -/
theorem rule_alike {text other : PyText} (same : letters text = letters other)
    {limit : Option (ℕ × ℕ)} (front : parseLimit text = some limit) {rule : RateLimitRule}
    (python : parseRule tables other = some rule) :
    limit = if 0 < rule.periodSeconds then some (rule.count, rule.periodSeconds.toNat) else none := by
  obtain ⟨sign, digits, unit, seconds, isText, isSign, areDigits, known, rfl⟩ := parseLimit_shape front
  obtain ⟨count, unit', isOther, areCounted, inTable, isCount⟩ := parseRule_shape python
  have noStroke : tables.digit 47 = none := tables.digit_ascii 47 (by decide)
  have noPlus : tables.digit 43 = none := tables.digit_ascii 43 (by decide)
  rw [isText, isOther] at same
  have inCount : (47 : CodePoint) ∉ count := by
    intro member
    have isDigit := areCounted 47 member
    rw [noStroke] at isDigit
    cases isDigit
  have inUnit : (47 : CodePoint) ∉ unit' := fun member =>
    absurd (timeUnits_letters inTable 47 member) (by decide)
  obtain ⟨rfl, -, rfl⟩ := (List.append_cons_inj_of_notMem inCount inUnit).mp same.symm
  have unsigned : sign = [] := by
    rcases isSign with none | plus
    · exact none
    · have isDigit := areCounted 43 (by rw [plus]; exact List.mem_cons_self)
      rw [noPlus] at isDigit
      cases isDigit
  subst unsigned
  have lowered : unit'.map PyText.lowerAscii = unit' := by
    refine (List.map_congr_left (g := id) fun point member => ?_).trans (List.map_id _)
    have letter := timeUnits_letters inTable point member
    unfold isUnitLetter at letter
    rw [Bool.and_eq_true, decide_eq_true_eq, decide_eq_true_eq] at letter
    refine if_neg fun upper => ?_
    exact absurd (letter.1.trans upper.2) (by decide)
  rw [lowered, rateUnits_lookup, inTable] at known
  cases known
  rw [isCount, List.nil_append, digit_alike areDigits]
  dsimp only
  rcases timeUnits_period inTable with negative | positive
  · rw [if_pos negative, if_neg (by omega)]
    rfl
  · rw [if_neg (not_lt.mpr positive.le), if_pos positive]
    rfl

/-- The rules of parts that have the same letters. -/
theorem rules_alike {parts others : List PyText} (same : parts.map letters = others.map letters)
    {limits : List (Option (ℕ × ℕ))} (front : parts.mapM parseLimit = some limits)
    {rules : List RateLimitRule} (python : others.mapM (parseRule tables) = some rules) :
    limits.reduceOption = countedRules rules := by
  induction parts generalizing others limits rules with
  | nil =>
    cases others with
    | nil =>
      cases front
      cases python
      rfl
    | cons other others => cases same
  | cons part parts ih =>
    cases others with
    | nil => cases same
    | cons other others =>
      obtain ⟨here, later⟩ := List.cons.inj same
      rw [List.mapM_cons] at front python
      obtain ⟨limit, isLimit, front⟩ := Option.bind_eq_some_iff.mp front
      obtain ⟨limits', areLimits, isFront⟩ := Option.bind_eq_some_iff.mp front
      obtain ⟨rule, isRule, python⟩ := Option.bind_eq_some_iff.mp python
      obtain ⟨rules', areRules, isPython⟩ := Option.bind_eq_some_iff.mp python
      cases isFront
      cases isPython
      have rest := ih later areLimits areRules
      rw [rule_alike here isLimit isRule]
      unfold countedRules at rest ⊢
      by_cases positive : 0 < rule.periodSeconds
      · rw [if_pos positive, List.reduceOption_cons_of_some, rest,
          List.filter_cons_of_pos (by simpa using positive), List.map_cons]
      · rw [if_neg positive, List.reduceOption_cons_of_none, rest,
          List.filter_cons_of_neg (by simpa using positive)]

/-- A configuration that is a text, or an object with a default only. -/
inductive SingleLimit : Value → Bytes → Prop
  | text (text : Bytes) : SingleLimit (.string text) text
  | default (text : Bytes) :
    SingleLimit (.object [(Utf8.lit "default", .string text)]) text

theorem SingleLimit.front {value : Value} {text : Bytes} (single : SingleLimit value text)
    (model : Option Bytes) : parseRateLimits (some value) model = parseLimits (pyText text) := by
  cases single with
  | text => rfl
  | default =>
    have unmatched : ∀ model : Option Bytes,
        (([(Utf8.lit "default", Value.string text)] : JsonMap).filter fun limit =>
          limit.1 != Utf8.lit "default" && model.any (containsBytes · limit.1)) = [] := by
      intro model
      rw [List.filter_cons_of_neg (by simp), List.filter_nil]
    have chosen : selectLimit [(Utf8.lit "default", .string text)] model = some (pyText text) := by
      unfold selectLimit
      cases found : model.bind (JsonMap.get [(Utf8.lit "default", .string text)]) with
      | none =>
        dsimp only
        rw [unmatched, if_neg (by decide), JsonMap.get, List.lookup_cons_self]
        rfl
      | some exact =>
        obtain ⟨name, -, isExact⟩ := Option.bind_eq_some_iff.mp found
        rw [JsonMap.get, List.lookup_cons] at isExact
        cases same : name == Utf8.lit "default" with
        | true =>
          rw [same] at isExact
          cases isExact
          rfl
        | false =>
          rw [same] at isExact
          cases isExact
    rw [parseRateLimits, chosen, Option.bind_some]

theorem SingleLimit.python {value : Value} {text : Bytes} (single : SingleLimit value text) :
    RateLimitPolicy.fromConfig tables value =
      (parseRules tables (pyText text)).map fun rules => ⟨[(defaultKey, rules)]⟩ := by
  cases single with
  | text => rfl
  | default =>
    have named : pyText (Utf8.lit "default") = defaultKey := by decide
    rw [RateLimitPolicy.fromConfig, List.mapM_cons, List.mapM_nil]
    dsimp only
    rw [parseRulesValue, named]
    cases parseRules tables (pyText text) <;> rfl

/-- **Both planes read the same rules**, but for those about tokens. -/
theorem parsed_alike {value : Value} {text : Bytes} (single : SingleLimit value text)
    {model : Option Bytes} {rules : List (ℕ × ℕ)}
    (front : parseRateLimits (some value) model = some rules) {policy : RateLimitPolicy}
    (python : RateLimitPolicy.fromConfig tables value = some policy) (asked : Option PyText) :
    rules = countedRules (policy.rulesFor asked) := by
  rw [single.front] at front
  rw [single.python] at python
  obtain ⟨parsed, areParsed, rfl⟩ := Option.map_eq_some_iff.mp python
  obtain ⟨limits, areLimits, rfl⟩ := Option.map_eq_some_iff.mp front
  rw [rules_alike (parts_alike _) areLimits areParsed, rulesFor_default]

end Parsing

/-! ### Admission -/

/-- The answers of the front to the requests of one bucket. -/
def frontAdmissions (bucket : Bytes) (rules : List (ℕ × ℕ)) :
    ClientWindows → List ℚ → List Bool
  | _, [] => []
  | windows, now :: times =>
    let asked := admitRate now bucket rules windows
    asked.1 :: frontAdmissions bucket rules asked.2 times

section Runs

variable (policy : RateLimitPolicy) (item : PyText) (model : Option PyText)

/-- The answers of the Python plane to the requests of one item and model. -/
def pythonAdmissions : RateLimitState → List ℚ → List Bool
  | _, [] => []
  | state, now :: times =>
    let asked := state.isRateLimited now item model policy true
    (!asked.1) :: pythonAdmissions asked.2 times

/-- The number of rules with a period. -/
def timesRepeated (period : ℤ) : ℕ :=
  (policy.rulesFor model).countP (·.periodSeconds = period)

/-- The requests that were admitted in the last period. -/
def recent (state : RateLimitState) (now : ℚ) (period : ℤ) : ℕ :=
  recordsAfter (state.requests item (modelKey model) period) (now - period)

/-- **A request that no repeated period tells apart**: where a window would be full if it had its requests
once for each rule with its period, some window is full. -/
def Untold (state : RateLimitState) (now : ℚ) : Prop :=
  (∃ rule ∈ policy.rulesFor model, 0 < rule.periodSeconds ∧
    rule.count ≤ timesRepeated policy model rule.periodSeconds *
      recent item model state now rule.periodSeconds) →
  ∃ rule ∈ policy.rulesFor model, 0 < rule.periodSeconds ∧
    rule.count ≤ recent item model state now rule.periodSeconds

/-- Every request of a sequence is one that no repeated period tells apart. -/
def UntoldAlong : RateLimitState → List ℚ → Prop
  | _, [] => True
  | state, now :: times =>
    Untold policy item model state now ∧
      UntoldAlong (state.isRateLimited now item model policy true).2 times

/-- **The windows of the planes are alike**: the front has a record of a request for each rule with the
period. -/
structure AlikeWindows (bucket : Bytes) (state : RateLimitState) (windows : ClientWindows) (now : ℚ) :
    Prop where
  awake : state.coolingUntil item ≤ now
  python : ∀ period, OrderedUntil now (state.requests item (modelKey model) period)
  front : ∀ key, OrderedUntil now (windows key)
  counts : ∀ seconds : ℕ, ∀ instant, now - (seconds : ℚ) ≤ instant →
    recordsAfter (windows (bucket, seconds)) instant =
      (countedRules (policy.rulesFor model)).countP (·.2 = seconds) *
        recordsAfter (state.requests item (modelKey model) (seconds : ℤ)) instant

variable {policy item model} {bucket : Bytes} {state : RateLimitState} {windows : ClientWindows}

theorem AlikeWindows.later {earlier now : ℚ} (alike : AlikeWindows policy item model bucket state windows earlier)
    (later : earlier ≤ now) : AlikeWindows policy item model bucket state windows now where
  awake := alike.awake.trans later
  python := fun period => (alike.python period).later later
  front := fun key => (alike.front key).later later
  counts := fun seconds instant within => alike.counts seconds instant (by linarith)

/-- The rules of the front with a period are those of the Python plane. -/
theorem countP_countedRules (rules : List RateLimitRule) {period : ℤ} (positive : 0 < period) :
    (countedRules rules).countP (·.2 = period.toNat) = rules.countP (·.periodSeconds = period) := by
  unfold countedRules
  rw [List.countP_map, List.countP_filter]
  refine List.countP_congr fun rule _ => ?_
  simp only [Function.comp_apply, Bool.and_eq_true, decide_eq_true_eq]
  omega

/-- **When the front admits a request**: no window is full that has its requests once for each rule. -/
theorem AlikeWindows.front_admits {now : ℚ} (alike : AlikeWindows policy item model bucket state windows now) :
    (checkRules now bucket (countedRules (policy.rulesFor model)) windows).1 = true ↔
      ∀ rule ∈ policy.rulesFor model, 0 < rule.periodSeconds →
        timesRepeated policy model rule.periodSeconds *
          recent item model state now rule.periodSeconds < rule.count := by
  rw [checkRules_admits _ fun key => (alike.front key).ordered]
  unfold countedRules
  simp only [List.forall_mem_map, List.mem_filter, decide_eq_true_eq, and_imp]
  refine forall₃_congr fun rule isRule positive => ?_
  have isPeriod : ((rule.periodSeconds.toNat : ℕ) : ℤ) = rule.periodSeconds :=
    Int.toNat_of_nonneg positive.le
  have counts := alike.counts rule.periodSeconds.toNat (now - (rule.periodSeconds.toNat : ℕ)) le_rfl
  rw [countP_countedRules _ positive, isPeriod] at counts
  rw [counts]
  have cast : ((rule.periodSeconds.toNat : ℕ) : ℚ) = (rule.periodSeconds : ℚ) := by
    exact_mod_cast congrArg (Int.cast : ℤ → ℚ) isPeriod
  rw [cast]
  rfl

/-- **When the Python plane admits a request**. -/
theorem AlikeWindows.python_admits {now : ℚ} (alike : AlikeWindows policy item model bucket state windows now) :
    (state.isRateLimited now item model policy true).1 = false ↔
      ∀ rule ∈ policy.rulesFor model, 0 < rule.periodSeconds →
        recent item model state now rule.periodSeconds < rule.count :=
  isRateLimited_admits policy true alike.awake fun period => (alike.python period).ordered

theorem timesRepeated_pos {rule : RateLimitRule} (isRule : rule ∈ policy.rulesFor model) :
    0 < timesRepeated policy model rule.periodSeconds :=
  List.countP_pos_iff.mpr ⟨rule, isRule, decide_eq_true rfl⟩

/-- **The planes answer alike** if and only if no repeated period tells the request apart. -/
theorem AlikeWindows.answers_iff {now : ℚ} (alike : AlikeWindows policy item model bucket state windows now) :
    (admitRate now bucket (countedRules (policy.rulesFor model)) windows).1 =
        !(state.isRateLimited now item model policy true).1 ↔
      Untold policy item model state now := by
  have weaker : (checkRules now bucket (countedRules (policy.rulesFor model)) windows).1 = true →
      (state.isRateLimited now item model policy true).1 = false := by
    rw [alike.front_admits, alike.python_admits]
    intro admits rule isRule positive
    exact (Nat.le_mul_of_pos_left _ (timesRepeated_pos isRule)).trans_lt (admits rule isRule positive)
  have front : (checkRules now bucket (countedRules (policy.rulesFor model)) windows).1 = false ↔
      ∃ rule ∈ policy.rulesFor model, 0 < rule.periodSeconds ∧
        rule.count ≤ timesRepeated policy model rule.periodSeconds *
          recent item model state now rule.periodSeconds := by
    rw [← Bool.not_eq_true, alike.front_admits]
    push Not
    rfl
  have python : (state.isRateLimited now item model policy true).1 = true ↔
      ∃ rule ∈ policy.rulesFor model, 0 < rule.periodSeconds ∧
        rule.count ≤ recent item model state now rule.periodSeconds := by
    rw [← Bool.not_eq_false, alike.python_admits]
    push Not
    rfl
  unfold Untold
  rw [admitRate_fst, ← front, ← python]
  generalize (checkRules now bucket (countedRules (policy.rulesFor model)) windows).1 = admits
    at weaker
  generalize (state.isRateLimited now item model policy true).1 = limited at weaker
  revert weaker
  revert admits limited
  decide

theorem positivePeriods_of_counted {rules : List RateLimitRule} {seconds : ℕ}
    (some : 0 < (countedRules rules).countP (·.2 = seconds)) :
    (seconds : ℤ) ∈ positivePeriods rules := by
  obtain ⟨rule, isRule, isSeconds⟩ := List.countP_pos_iff.mp some
  obtain ⟨original, isOriginal, rfl⟩ := List.mem_map.mp isRule
  obtain ⟨member, positive⟩ := List.mem_filter.mp isOriginal
  rw [decide_eq_true_eq] at positive isSeconds
  have period : original.periodSeconds = (seconds : ℤ) := by
    rw [← isSeconds]
    exact (Int.toNat_of_nonneg positive.le).symm
  exact mem_positivePeriods.mpr ⟨period ▸ positive, original, member, period⟩

/-- **A request that is answered alike keeps the windows alike.** -/
theorem alike_step {now : ℚ} (alike : AlikeWindows policy item model bucket state windows now)
    (same : (admitRate now bucket (countedRules (policy.rulesFor model)) windows).1 =
      !(state.isRateLimited now item model policy true).1) :
    AlikeWindows policy item model bucket (state.isRateLimited now item model policy true).2
      (admitRate now bucket (countedRules (policy.rulesFor model)) windows).2 now where
  awake := by
    rw [isRateLimited_cooling]
    exact alike.awake
  python := isRateLimited_ordered policy true alike.python
  front := by
    have checked : ∀ key, OrderedUntil now
        ((checkRules now bucket (countedRules (policy.rulesFor model)) windows).2 key) :=
      fun key => (alike.front key).sublist (checkRules_keeps _ _ key).1
    intro key
    rw [admitRate_snd]
    split
    · exact pushRules_ordered _ checked key
    · exact checked key
  counts := by
    intro seconds instant within
    have kept : recordsAfter ((checkRules now bucket (countedRules (policy.rulesFor model)) windows).2
        (bucket, seconds)) instant = recordsAfter (windows (bucket, seconds)) instant :=
      (checkRules_keeps _ _ _).2 instant within
    have before := alike.counts seconds instant within
    rw [isRateLimited_records policy state now item model true seconds (by exact_mod_cast within)]
    rw [admitRate_snd, same]
    cases limited : (state.isRateLimited now item model policy true).1 with
    | true =>
      rw [Bool.not_true, if_neg Bool.false_ne_true, kept, before, if_neg (by simp), Nat.add_zero]
    | false =>
      rw [Bool.not_false, if_pos rfl, pushRules_records, kept, before, Nat.mul_add]
      congr 1
      rcases Nat.eq_zero_or_pos
        ((countedRules (policy.rulesFor model)).countP (·.2 = seconds)) with none | some
      · rw [none, Nat.zero_mul, Nat.zero_mul]
      · simp only [positivePeriods_of_counted some, true_and, and_self]

/-- **The answers of a run** are those of the other plane if and only if no repeated period tells one of
its requests apart. -/
theorem admissions_iff {now : ℚ} {times : List ℚ} (clock : (now :: times).Pairwise (· ≤ ·))
    (alike : AlikeWindows policy item model bucket state windows now) :
    frontAdmissions bucket (countedRules (policy.rulesFor model)) windows times =
        pythonAdmissions policy item model state times ↔
      UntoldAlong policy item model state times := by
  induction times generalizing now state windows with
  | nil => exact iff_of_true rfl trivial
  | cons next times ih =>
    obtain ⟨first, later⟩ := List.pairwise_cons.mp clock
    have here := alike.later (first next List.mem_cons_self)
    rw [frontAdmissions, pythonAdmissions, UntoldAlong, List.cons.injEq, here.answers_iff]
    refine and_congr_right fun untold => ?_
    exact ih later (alike_step here (here.answers_iff.mpr untold))

theorem alike_start (policy : RateLimitPolicy) (item : PyText) (model : Option PyText)
    (bucket : Bytes) :
    AlikeWindows policy item model bucket RateLimitState.start (fun _ => []) 0 where
  awake := le_rfl
  python := fun _ => .nil 0
  front := fun _ => .nil 0
  counts := fun _ _ _ => (Nat.mul_zero _).symm

theorem untoldAlong_of_distinct
    (distinct : (positivePeriods (policy.rulesFor model)).Nodup) (times : List ℚ) :
    UntoldAlong policy item model state times := by
  have once : ∀ rule ∈ policy.rulesFor model, 0 < rule.periodSeconds →
      timesRepeated policy model rule.periodSeconds = 1 := by
    intro rule isRule positive
    have count := List.count_eq_one_of_mem distinct
      (mem_positivePeriods.mpr ⟨positive, rule, isRule, rfl⟩)
    rw [← count]
    unfold timesRepeated positivePeriods
    rw [List.count_filter (by simpa using positive), List.count_eq_countP, List.countP_map]
    refine List.countP_congr fun other _ => ?_
    rw [decide_eq_true_eq, Function.comp_apply, beq_iff_eq]
  induction times generalizing state with
  | nil => trivial
  | cons now times ih =>
    refine ⟨?_, ih⟩
    rintro ⟨rule, isRule, positive, many⟩
    rw [once rule isRule positive, Nat.one_mul] at many
    exact ⟨rule, isRule, positive, many⟩

end Runs

/-- **The planes admit the same requests of one bucket** if and only if, at each request, a window that
would be full with its requests counted once for each rule with its period comes with a full window. The
configuration is a text, or an object with a default only, that both planes accept. -/
theorem rate_limits_agree_iff (tables : LimitTables) {value : Value} {text : Bytes}
    (single : SingleLimit value text) {frontModel : Option Bytes} {rules : List (ℕ × ℕ)}
    (front : parseRateLimits (some value) frontModel = some rules) {policy : RateLimitPolicy}
    (python : RateLimitPolicy.fromConfig tables value = some policy) (bucket : Bytes) (item : PyText)
    (model : Option PyText) {times : List ℚ} (clock : (0 :: times).Pairwise (· ≤ ·)) :
    frontAdmissions bucket rules (fun _ => []) times =
        pythonAdmissions policy item model RateLimitState.start times ↔
      UntoldAlong policy item model RateLimitState.start times := by
  rw [parsed_alike single front python model]
  exact admissions_iff clock (alike_start policy item model bucket)

/-- Two rules of two requests in a minute. -/
def twiceTwo : Value := .string (Utf8.lit "2/min,2/min")

/-- **A period that is repeated**: the front admits one of two requests, Python both. -/
theorem repeated_period_differs :
    ∃ rules policy, parseRateLimits (some twiceTwo) none = some rules ∧
      RateLimitPolicy.fromConfig LimitTables.ascii twiceTwo = some policy ∧
      frontAdmissions [] rules (fun _ => []) [0, 0] = [true, false] ∧
      pythonAdmissions policy [] none RateLimitState.start [0, 0] = [true, true] := by
  refine ⟨[(2, 60), (2, 60)], ⟨[(defaultKey, [⟨2, 60⟩, ⟨2, 60⟩])]⟩, ?_, ?_, ?_, ?_⟩
  · decide
  · decide
  · decide +kernel
  · decide +kernel

/-- One rule of two requests in a minute. -/
theorem single_rule_agrees :
    frontAdmissions [] [(2, 60)] (fun _ => []) [0, 0, 30] =
        pythonAdmissions ⟨[(defaultKey, [⟨2, 60⟩])]⟩ [] none RateLimitState.start [0, 0, 30] ↔
      UntoldAlong ⟨[(defaultKey, [⟨2, 60⟩])]⟩ [] none RateLimitState.start [0, 0, 30] :=
  rate_limits_agree_iff LimitTables.ascii (.text (Utf8.lit "2/min"))
    (show parseRateLimits (some (.string (Utf8.lit "2/min"))) none = some [(2, 60)] by decide)
    (by decide) [] [] none (by decide)

/-- **Where no period is repeated the planes admit the same requests** of one bucket and one model, in every
run of these. -/
theorem distinct_periods_agree (policy : RateLimitPolicy) (bucket : Bytes) (item : PyText)
    (model : Option PyText) (distinct : (positivePeriods (policy.rulesFor model)).Nodup)
    {times : List ℚ} (clock : (0 :: times).Pairwise (· ≤ ·)) :
    frontAdmissions bucket (countedRules (policy.rulesFor model)) (fun _ => []) times =
      pythonAdmissions policy item model RateLimitState.start times :=
  (admissions_iff clock (alike_start policy item model bucket)).mpr
    (untoldAlong_of_distinct distinct times)

/-- Rules of two periods. -/
theorem distinct_periods_agree_two :
    frontAdmissions [] [(2, 60), (3, 3600)] (fun _ => []) [0, 0, 30, 60, 90] =
      pythonAdmissions ⟨[(defaultKey, [⟨2, 60⟩, ⟨3, 3600⟩])]⟩ [] none RateLimitState.start
        [0, 0, 30, 60, 90] :=
  distinct_periods_agree ⟨[(defaultKey, [⟨2, 60⟩, ⟨3, 3600⟩])]⟩ [] [] none (by decide) (by decide)

end UniApi.CrossPlane
