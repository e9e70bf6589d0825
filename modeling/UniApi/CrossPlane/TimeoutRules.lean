/-
**What both planes make of a rule of the timeouts.**

The front compares texts as they are, in ASCII case; the Python plane strips them and lowers all letters,
and looks a model up under the upstream model as well.

* `textMatches_alike`, `EntryAlike.matches_eq`: texts and entries that both planes meet alike;
* `candidate_alike`: a rule with such entries is weighed alike;
* `best_alike`: the best rules are the same where each rule is weighed alike or is behind another one.
-/

import Mathlib.Data.List.Basic
import UniApi.Config.TimeoutPolicy
import UniApi.Front.ProviderStatus
import UniApi.Front.Timeouts

namespace UniApi.CrossPlane

open UniApi.Lib UniApi.Front UniApi.Upstream UniApi.Config

/-! ### Best candidates -/

section Best

variable {α β γ : Type}

/-- The first candidate that scores best. -/
def keepBest (best : Option (Nat × α)) (candidate : Nat × α) : Option (Nat × α) :=
  if best.all (·.1 < candidate.1) then some candidate else best

/-- A score at a place goes before another: it is higher, or the same and in front. -/
def Before (score place score' place' : Nat) : Prop := score' < score ∨ score' = score ∧ place < place'

/-- The candidate at a place goes before all others. -/
structure IsBest (candidate : γ → Option (Nat × α)) (items : List γ) (place : Nat) (best : Nat × α) :
    Prop where
  here : ∃ item, items[place]? = some item ∧ candidate item = some best
  others : ∀ other item found, items[other]? = some item → candidate item = some found →
    other = place ∨ Before best.1 place found.1 other

theorem getElem?_concat_eq_some {items : List γ} {last item : γ} {place : Nat} :
    (items ++ [last])[place]? = some item ↔
      items[place]? = some item ∨ place = items.length ∧ last = item := by
  rcases lt_trichotomy place items.length with inside | rfl | outside
  · rw [List.getElem?_append_left inside]
    simp [inside.ne]
  · simp
  · rw [List.getElem?_eq_none (by simp; omega), List.getElem?_eq_none (by omega)]
    simp [outside.ne']

theorem IsBest.skip {candidate : γ → Option (Nat × α)} {items : List γ} {place : Nat}
    {best : Nat × α} (isBest : IsBest candidate items place best) {last : γ}
    (beaten : ∀ added, candidate last = some added → added.1 ≤ best.1) :
    IsBest candidate (items ++ [last]) place best where
  here := by
    obtain ⟨item, isItem, found⟩ := isBest.here
    exact ⟨item, getElem?_concat_eq_some.mpr (.inl isItem), found⟩
  others other item found isOther taken := by
    obtain ⟨_, isItem, _⟩ := isBest.here
    have inside := (List.getElem?_eq_some_iff.mp isItem).1
    rcases getElem?_concat_eq_some.mp isOther with front | ⟨rfl, rfl⟩
    · exact isBest.others other item found front taken
    · have lower := beaten found taken
      unfold Before
      omega

theorem isBest_concat {candidate : γ → Option (Nat × α)} {items : List γ} {last : γ} {added : Nat × α}
    (isLast : candidate last = some added)
    (lower : ∀ (other : Nat) item found, items[other]? = some item → candidate item = some found →
      found.1 < added.1) :
    IsBest candidate (items ++ [last]) items.length added where
  here := ⟨last, by simp, isLast⟩
  others other item found isOther taken := by
    rcases getElem?_concat_eq_some.mp isOther with front | ⟨same, _⟩
    · exact .inr (.inl (lower other item found front taken))
    · exact .inl same

/-- The best candidate has the highest score. -/
theorem IsBest.score_le {candidate : γ → Option (Nat × α)} {items : List γ} {place other : Nat}
    {best found : Nat × α} {item : γ} (isBest : IsBest candidate items place best)
    (isOther : items[other]? = some item) (taken : candidate item = some found) : found.1 ≤ best.1 := by
  obtain ⟨item', isItem, isFound⟩ := isBest.here
  rcases isBest.others other item found isOther taken with rfl | before
  · rw [isItem] at isOther
    cases isOther
    rw [isFound] at taken
    exact (congrArg Prod.fst (Option.some_injective _ taken)).ge
  · unfold Before at before
    omega

/-- **The fold finds the best candidate**, if there is one. -/
theorem foldl_keepBest (candidate : γ → Option (Nat × α)) (items : List γ) :
    ((items.filterMap candidate).foldl keepBest none = none ∧ ∀ item ∈ items, candidate item = none) ∨
      ∃ best place, (items.filterMap candidate).foldl keepBest none = some best ∧
        IsBest candidate items place best := by
  induction items using List.reverseRecOn with
  | nil => exact .inl ⟨rfl, nofun⟩
  | append_singleton items last ih =>
    rw [List.filterMap_append, List.foldl_append, List.filterMap_cons, List.filterMap_nil]
    cases isLast : candidate last with
    | none =>
      rcases ih with ⟨noBest, all⟩ | ⟨best, place, folded, isBest⟩
      · exact .inl ⟨noBest, by simpa [or_imp, forall_and] using ⟨all, isLast⟩⟩
      · exact .inr ⟨best, place, folded, isBest.skip fun added taken => by simp [isLast] at taken⟩
    | some added =>
      right
      rcases ih with ⟨noBest, all⟩ | ⟨best, place, folded, isBest⟩
      · refine ⟨added, items.length, by rw [noBest]; rfl, isBest_concat isLast ?_⟩
        intro other item found isOther taken
        rw [all item (List.mem_of_getElem? isOther)] at taken
        cases taken
      · rw [folded, List.foldl_cons, List.foldl_nil, keepBest, Option.all_some]
        by_cases better : best.1 < added.1
        · rw [if_pos (decide_eq_true better)]
          exact ⟨added, items.length, rfl, isBest_concat isLast fun _ _ _ isOther taken =>
            (isBest.score_le isOther taken).trans_lt better⟩
        · rw [if_neg (by simpa using better)]
          refine ⟨best, place, rfl, isBest.skip fun other taken => ?_⟩
          rw [isLast] at taken
          cases taken
          exact Nat.le_of_not_lt better

theorem IsBest.unique {candidate : γ → Option (Nat × α)} {items : List γ} {place place' : Nat}
    {best best' : Nat × α} (first : IsBest candidate items place best)
    (second : IsBest candidate items place' best') : best = best' := by
  obtain ⟨item, isItem, found⟩ := first.here
  obtain ⟨item', isItem', found'⟩ := second.here
  have same : place = place' := by
    rcases first.others place' item' best' isItem' found' with same | before
    · exact same.symm
    · rcases second.others place item best isItem found with same | before'
      · exact same
      · unfold Before at before before'
        omega
  subst same
  rw [isItem] at isItem'
  cases isItem'
  rw [found] at found'
  exact Option.some_injective _ found'

/-- The best candidate goes before what a candidate goes before. -/
theorem IsBest.before {candidate : γ → Option (Nat × α)} {items : List γ} {place rival score place' : Nat}
    {best found : Nat × α} {other : γ} (isBest : IsBest candidate items place best)
    (isOther : items[rival]? = some other) (taken : candidate other = some found)
    (behind : Before found.1 rival score place') : Before best.1 place score place' := by
  have lower := isBest.score_le isOther taken
  rcases isBest.others rival other found isOther taken with rfl | before
  all_goals
    unfold Before at *
    omega

/-- Two candidates that score alike and whose values are related. -/
def ScoredAlike (related : α → β → Prop) (first : Nat × α) (second : Nat × β) : Prop :=
  first.1 = second.1 ∧ related first.2 second.2

section Alike

variable {related : α → β → Prop} {first : γ → Option (Nat × α)} {second : γ → Option (Nat × β)}
  {items : List γ}
  (alike : ∀ place item, items[place]? = some item →
    Option.Rel (ScoredAlike related) (first item) (second item) ∨
      ∃ rival other found, items[rival]? = some other ∧ first other = some found ∧
        (∀ beaten, first item = some beaten → Before found.1 rival beaten.1 place) ∧
        ∀ beaten, second item = some beaten → Before found.1 rival beaten.1 place)
include alike

/-- The best candidate of the one list has a related one in the other, and that is the best there. -/
theorem exists_isBest {place : Nat} {best : Nat × α} (isBest : IsBest first items place best) :
    ∃ best', ScoredAlike related best best' ∧ IsBest second items place best' := by
  obtain ⟨item, isItem, found⟩ := isBest.here
  have same : Option.Rel (ScoredAlike related) (first item) (second item) := by
    refine (alike place item isItem).resolve_right ?_
    rintro ⟨rival, other, taken, isOther, isTaken, beaten, _⟩
    have before := isBest.before isOther isTaken (beaten best found)
    unfold Before at before
    omega
  rw [found] at same
  cases isSecond : second item with
  | none => rw [isSecond] at same; cases same
  | some best' =>
    rw [isSecond] at same
    have scored : ScoredAlike related best best' := by cases same; assumption
    refine ⟨best', scored, ⟨item, isItem, isSecond⟩, fun other item' taken isOther isTaken => ?_⟩
    rcases alike other item' isOther with related' | ⟨rival, item'', found', isRival, isFound, _, beaten⟩
    · rw [isTaken] at related'
      cases isFirst : first item' with
      | none => rw [isFirst] at related'; cases related'
      | some taken' =>
        rw [isFirst] at related'
        have scored' : taken'.1 = taken.1 := by cases related' with | some here => exact here.1
        rw [← scored.1, ← scored']
        exact isBest.others other item' taken' isOther isFirst
    · rw [← scored.1]
      exact .inr (isBest.before isRival isFound (beaten taken isTaken))

/-- **Lists with the same best**: each item has related candidates, or an item with related ones goes
before whatever it has. -/
theorem best_alike :
    Option.Rel (ScoredAlike related) ((items.filterMap first).foldl keepBest none)
      ((items.filterMap second).foldl keepBest none) := by
  rcases foldl_keepBest first items with ⟨noBest, all⟩ | ⟨best, place, isFirst, isBest⟩
  · rw [noBest]
    rcases foldl_keepBest second items with ⟨noBest', _⟩ | ⟨best', place', _, isBest'⟩
    · rw [noBest']
      exact .none
    · obtain ⟨item, isItem, found⟩ := isBest'.here
      rcases alike place' item isItem with same | ⟨rival, other, taken, isOther, isTaken, _⟩
      · rw [all item (List.mem_of_getElem? isItem), found] at same
        cases same
      · rw [all other (List.mem_of_getElem? isOther)] at isTaken
        cases isTaken
  · obtain ⟨best', scored, isBest'⟩ := exists_isBest alike isBest
    rcases foldl_keepBest second items with ⟨_, all⟩ | ⟨other, place', isOther, isBest''⟩
    · obtain ⟨item, isItem, isSecond⟩ := isBest'.here
      rw [all item (List.mem_of_getElem? isItem)] at isSecond
      cases isSecond
    · rw [isFirst, isOther, ← isBest'.unique isBest'']
      exact .some scored

end Alike

end Best
/-! ### Texts -/

section Texts

variable (runtime : StreamRuntime)

/-- **Both planes lower a text alike**: Python changes its ASCII letters only. -/
def LowersAlike (text : Bytes) : Prop :=
  ∃ points, Utf8.decodeAll text = some points ∧
    Utf8.decodeAll (text.map toAsciiLowercase) = some (runtime.lower points)

/-- A text without blanks around it. -/
def IsStripped (text : Bytes) : Prop := PyText.strip (pyText text) = pyText text

instance (text : Bytes) : Decidable (IsStripped text) :=
  inferInstanceAs (Decidable (PyText.strip (pyText text) = pyText text))

/-- **An expected text that both planes compare alike with an actual one.** -/
inductive MatchedAlike : Bytes → Bytes → Prop
  | star (actual) : MatchedAlike [42] actual
  | same {text} : PyText.strip (pyText text) ≠ [] →
    (PyText.strip (pyText text)).getLast? ≠ some 42 → MatchedAlike text text
  | whole {expected actual} : expected ≠ [] → expected.getLast? ≠ some 42 → IsStripped expected →
    IsStripped actual → LowersAlike runtime expected → LowersAlike runtime actual →
    MatchedAlike expected actual
  | family {start actual} : IsStripped (start ++ [42]) → IsStripped actual →
    LowersAlike runtime start → LowersAlike runtime actual → MatchedAlike (start ++ [42]) actual

variable {runtime}

theorem pyText_of_decodeAll {text : Bytes} {points : List CodePoint}
    (decoded : Utf8.decodeAll text = some points) : pyText text = points := by
  rw [pyText, decoded, Option.getD_some]

theorem strOrEmpty_string (text : Bytes) : strOrEmpty runtime (.string text) = pyText text := by
  cases text <;> rfl

/-- ASCII texts are lowered alike. -/
theorem lowersAlike_ascii {text : Bytes} (ascii : ∀ byte ∈ text, byte.toNat < 0x80) :
    LowersAlike runtime text := by
  have isAscii : PyText.Ascii (text.map UInt8.toNat) := by
    intro point isPoint
    obtain ⟨byte, isByte, rfl⟩ := List.mem_map.mp isPoint
    exact ascii byte isByte
  have lowered : ∀ byte ∈ text.map toAsciiLowercase, byte.toNat < 0x80 := by
    intro byte isByte
    obtain ⟨upper, isUpper, rfl⟩ := List.mem_map.mp isByte
    have small := ascii upper isUpper
    rw [toNat_toAsciiLowercase, PyText.lowerAscii]
    split
    · rename_i letter
      have bound : upper.toNat ≤ 90 := letter.2
      show upper.toNat + 32 < 128
      omega
    · exact small
  refine ⟨text.map UInt8.toNat, Utf8.decodeAll_ascii ascii, ?_⟩
  rw [Utf8.decodeAll_ascii lowered, runtime.lower_isFold.ascii _ isAscii, List.map_map, List.map_map]
  exact congrArg some (List.map_congr_left fun byte _ => toNat_toAsciiLowercase byte)

theorem LowersAlike.nonempty {text : Bytes} {points : List CodePoint} (nonempty : text ≠ [])
    (decoded : Utf8.decodeAll text = some points) : points ≠ [] := by
  rintro rfl
  exact nonempty (Utf8.decodeAll_injective decoded rfl)

/-- A text ends in a star exactly if its bytes do. -/
theorem getLast?_star_of_decodeAll {text : Bytes} {points : List CodePoint}
    (decoded : Utf8.decodeAll text = some points) (last : points.getLast? = some 42) :
    text.getLast? = some 42 := by
  obtain ⟨start, rfl⟩ := List.getLast?_eq_some_iff.mp last
  obtain ⟨letters, rfl, same⟩ := Utf8.decodeAll_eq_some_iff.mp decoded
  obtain ⟨front, back, rfl, rfl, isBack⟩ := List.map_eq_append_iff.mp same.symm
  have text := Utf8.decodeAll_concat_ascii (Utf8.decodeAll_encode front) (show (42 : UInt8).toNat < 0x80 by decide)
  rw [Utf8.decodeAll_injective decoded text]
  exact List.getLast?_concat

/-- Both planes compare lower-cased texts. -/
theorem eqIgnoreAsciiCase_eq {expected actual : Bytes} (lowers : LowersAlike runtime expected)
    (lowers' : LowersAlike runtime actual) :
    eqIgnoreAsciiCase expected actual =
      (runtime.lower (pyText expected) == runtime.lower (pyText actual)) := by
  obtain ⟨points, decoded, lowered⟩ := lowers
  obtain ⟨points', decoded', lowered'⟩ := lowers'
  rw [pyText_of_decodeAll decoded, pyText_of_decodeAll decoded', eqIgnoreAsciiCase, Bool.eq_iff_iff,
    beq_iff_eq, beq_iff_eq]
  constructor
  · intro same
    rw [same, lowered'] at lowered
    exact (Option.some_injective _ lowered).symm
  · intro same
    exact Utf8.decodeAll_injective lowered (same ▸ lowered')

theorem isPrefixOf_lower_eq {start actual : Bytes} (lowers : LowersAlike runtime start)
    (lowers' : LowersAlike runtime actual) :
    (start.map toAsciiLowercase).isPrefixOf (actual.map toAsciiLowercase) =
      (runtime.lower (pyText start)).isPrefixOf (runtime.lower (pyText actual)) := by
  obtain ⟨points, decoded, lowered⟩ := lowers
  obtain ⟨points', decoded', lowered'⟩ := lowers'
  rw [pyText_of_decodeAll decoded, pyText_of_decodeAll decoded', Bool.eq_iff_iff,
    List.isPrefixOf_iff_prefix, List.isPrefixOf_iff_prefix]
  exact Utf8.prefix_iff_of_decodeAll lowered lowered'

/-- The front compares a text that ends in a star by what is in front of the star. -/
theorem textMatches_family (start actual : Bytes) :
    textMatches (start ++ [42]) actual =
      (start.map toAsciiLowercase).isPrefixOf (actual.map toAsciiLowercase) := by
  rw [Bool.eq_iff_iff, List.isPrefixOf_iff_prefix]
  simp only [textMatches, eqIgnoreAsciiCase, List.getLast?_concat, List.dropLast_concat, beq_self_eq_true,
    Bool.true_and, Bool.or_eq_true, beq_iff_eq, List.isPrefixOf_iff_prefix]
  constructor
  · rintro ((alone | same) | isPrefix)
    · obtain rfl : start = [] := by simpa using congrArg List.dropLast alone
      exact List.nil_prefix
    · rw [← same, List.map_append]
      exact List.prefix_append _ _
    · exact isPrefix
  · exact .inr

/-- The Python plane likewise. -/
theorem scalarMatches_string (expected actual : Bytes) :
    scalarMatches runtime (.string expected) (.string actual) =
      let expectedStr := PyText.strip (pyText expected)
      let actualStr := PyText.strip (pyText actual)
      if expectedStr.isEmpty then false
      else if expectedStr = [42] then true
      else if expectedStr.getLast? = some 42 then
        (runtime.lower expectedStr.dropLast).isPrefixOf (runtime.lower actualStr)
      else runtime.lower expectedStr == runtime.lower actualStr := by
  rw [scalarMatches, strOrEmpty_string]
  · rfl
  · nofun

/-- **Texts that are compared alike are matched by both planes or by neither.** -/
theorem textMatches_alike {expected actual : Bytes} (alike : MatchedAlike runtime expected actual) :
    textMatches expected actual = scalarMatches runtime (.string expected) (.string actual) := by
  rw [scalarMatches_string]
  cases alike with
  | star => rfl
  | same nonempty last =>
    have alone : PyText.strip (pyText expected) ≠ [42] := fun same => last (by rw [same]; rfl)
    simp [textMatches, eqIgnoreAsciiCase, nonempty, last, alone]
  | whole nonempty last stripped stripped' lowers lowers' =>
    obtain ⟨points, decoded, _⟩ := id lowers
    have some_ := pyText_of_decodeAll decoded
    have noStar : points.getLast? ≠ some 42 := mt (getLast?_star_of_decodeAll decoded) last
    have alone : points ≠ [42] := fun same => noStar (by rw [same]; rfl)
    have alone' : expected ≠ [42] := fun same => last (by rw [same]; rfl)
    have nonempty' := LowersAlike.nonempty nonempty decoded
    have front : textMatches expected actual = eqIgnoreAsciiCase expected actual := by
      rw [textMatches, beq_false_of_ne alone', beq_false_of_ne last, Bool.false_or, Bool.false_and,
        Bool.or_false]
    rw [front, eqIgnoreAsciiCase_eq lowers lowers', stripped, stripped', some_]
    simp [nonempty', alone, noStar]
  | @family start _ stripped stripped' lowers lowers' =>
    obtain ⟨points, decoded, lowered⟩ := id lowers
    have whole := pyText_of_decodeAll (Utf8.decodeAll_concat_ascii decoded (show (42 : UInt8).toNat < 0x80 by decide))
    rw [textMatches_family, isPrefixOf_lower_eq lowers lowers', stripped, stripped', whole,
      pyText_of_decodeAll decoded]
    by_cases alone : points = []
    · subst alone
      have empty : runtime.lower [] = [] := by
        obtain rfl := Utf8.decodeAll_injective decoded (show Utf8.decodeAll [] = some [] from rfl)
        exact (Option.some_injective _ lowered).symm
      rw [empty]
      rfl
    · simp [alone]

end Texts

/-! ### Entries -/

mutual

/-- What is expected, out of its lists. -/
def leaves : Value → List Value
  | .array items => allLeaves items
  | .null => [.null]
  | .bool expected => [.bool expected]
  | .number expected => [.number expected]
  | .string expected => [.string expected]
  | .object expected => [.object expected]

/-- What the members of a list expect. -/
def allLeaves : List Value → List Value
  | [] => []
  | item :: rest => leaves item ++ allLeaves rest

end

mutual

theorem valueMatches_eq (runtime : StreamRuntime) (actual : Value) : ∀ expected,
    valueMatches runtime actual expected = (leaves expected).any (scalarMatches runtime · actual)
  | .array items => anyMatches_eq runtime actual items
  | .null | .bool _ | .number _ | .string _ | .object _ => by simp [valueMatches, leaves]

theorem anyMatches_eq (runtime : StreamRuntime) (actual : Value) : ∀ items,
    anyMatches runtime actual items = (allLeaves items).any (scalarMatches runtime · actual)
  | [] => rfl
  | item :: rest => by
    rw [anyMatches, allLeaves, List.any_append, valueMatches_eq runtime actual item,
      anyMatches_eq runtime actual rest]

end

mutual

theorem timeoutValueMatches_eq (actual : Bytes) : ∀ expected,
    timeoutValueMatches actual expected =
      (leaves expected).any fun leaf => leaf.asStr.any (textMatches · actual)
  | .array items => timeoutAnyMatches_eq actual items
  | .null | .bool _ | .number _ | .string _ | .object _ => by
    simp [timeoutValueMatches, leaves, Value.asStr]

theorem timeoutAnyMatches_eq (actual : Bytes) : ∀ items,
    timeoutAnyMatches actual items =
      (allLeaves items).any fun leaf => leaf.asStr.any (textMatches · actual)
  | [] => rfl
  | item :: rest => by
    rw [timeoutAnyMatches, allLeaves, List.any_append, timeoutValueMatches_eq actual item,
      timeoutAnyMatches_eq actual rest]

end

section Entries

variable (runtime : StreamRuntime) (context : Context)

/-- The Python plane finds what is expected at a key or at one of its aliases. -/
def leafMatches (key : Bytes) (leaf : Value) : Bool :=
  (aliases key).any fun contextKey => scalarMatches runtime leaf (contextValue context contextKey)

/-- **A value is expected alike by both planes**: a text that both compare alike, and that is not only the
upstream model where the model is asked for; or no text, and nothing that the Python plane finds. -/
inductive LeafAlike (key : Bytes) : Value → Prop
  | text {text} : MatchedAlike runtime text (contextText context key) →
    (key = Utf8.lit "model" → scalarMatches runtime (.string text) (.string context.upstreamModel) →
      textMatches text context.requestModel) → LeafAlike key (.string text)
  | neither {leaf} : leaf.asStr = none → leafMatches runtime context key leaf = false →
    LeafAlike key leaf

/-- **An entry is expected alike by both planes**: a boolean for `stream`; or, at another key, what is
no null and has a text that is found alike or only values that are expected alike. -/
inductive EntryAlike : Bytes → Value → Prop
  | stream (expected) : EntryAlike (Utf8.lit "stream") (.bool expected)
  | found {key expected text} : key ≠ Utf8.lit "stream" → .string text ∈ leaves expected →
    LeafAlike runtime context key (.string text) → textMatches text (contextText context key) →
    EntryAlike key expected
  | every {key expected} : key ≠ Utf8.lit "stream" → expected.isNull = false →
    (∀ leaf ∈ leaves expected, LeafAlike runtime context key leaf) → EntryAlike key expected

variable {runtime context}

theorem strOrEmpty_contextValue {key : Bytes} (differ : key ≠ Utf8.lit "stream") :
    strOrEmpty runtime (contextValue context key) = pyText (contextText context key) := by
  unfold contextValue contextText
  rw [if_neg differ]
  split_ifs <;> first | exact strOrEmpty_string _ | rfl

theorem scalarMatches_contextValue {key : Bytes} (differ : key ≠ Utf8.lit "stream") (text : Bytes) :
    scalarMatches runtime (.string text) (contextValue context key) =
      scalarMatches runtime (.string text) (.string (contextText context key)) := by
  unfold scalarMatches
  rw [strOrEmpty_contextValue differ, strOrEmpty_string]

/-- The models of the context. -/
theorem context_models : contextText context (Utf8.lit "model") = context.requestModel ∧
    contextValue context (Utf8.lit "model") = .string context.requestModel ∧
    contextValue context (Utf8.lit "request_model") = .string context.requestModel ∧
    contextValue context (Utf8.lit "upstream_model") = .string context.upstreamModel := by
  refine ⟨?_, ?_, ?_, ?_⟩
  · unfold contextText
    rw [if_neg (by decide), if_neg (by decide), if_neg (by decide), if_neg (by decide), if_pos rfl]
  all_goals
    unfold contextValue
    rw [if_neg (by decide), if_neg (by decide), if_neg (by decide), if_neg (by decide),
      if_neg (by decide)]
  · rw [if_pos rfl]
  · rw [if_neg (by decide), if_pos rfl]
  · rw [if_neg (by decide), if_neg (by decide), if_pos rfl]

/-- **Values that are expected alike are found by both planes or by neither.** -/
theorem LeafAlike.matches_eq {key : Bytes} {leaf : Value} (alike : LeafAlike runtime context key leaf)
    (differ : key ≠ Utf8.lit "stream") :
    leaf.asStr.any (textMatches · (contextText context key)) = leafMatches runtime context key leaf := by
  cases alike with
  | neither noText refused => rw [noText, refused]; rfl
  | @text text alike upstream =>
    change textMatches text _ = _
    by_cases isModel : key = Utf8.lit "model"
    · subst isModel
      obtain ⟨textIs, modelIs, requestIs, upstreamIs⟩ := @context_models context
      rw [textIs] at alike ⊢
      have upstreamed := upstream rfl
      have matched := textMatches_alike alike
      simp only [leafMatches, aliases, if_pos, List.any_cons, List.any_nil, modelIs, requestIs, upstreamIs,
        ← matched]
      cases here : textMatches text context.requestModel with
      | true => rfl
      | false =>
        rw [here] at upstreamed
        simpa using upstreamed
    · have alone : aliases key = [key] := if_neg isModel
      rw [leafMatches, alone, List.any_cons, List.any_nil, Bool.or_false,
        scalarMatches_contextValue differ, textMatches_alike alike]

theorem entryMatches_eq {key : Bytes} {expected : Value} (present : expected.isNull = false) :
    entryMatches runtime context key expected =
      (leaves expected).any (leafMatches runtime context key) := by
  unfold entryMatches leafMatches
  rw [present, Bool.false_or]
  rw [Bool.eq_iff_iff]
  simp only [valueMatches_eq, List.any_eq_true]
  constructor <;> rintro ⟨outer, isOuter, inner, isInner, found⟩ <;>
    exact ⟨inner, isInner, outer, isOuter, found⟩

theorem timeoutEntryMatches_eq {key : Bytes} (differ : key ≠ Utf8.lit "stream") (expected : Value) :
    timeoutEntryMatches context key expected =
      (leaves expected).any fun leaf => leaf.asStr.any (textMatches · (contextText context key)) := by
  unfold timeoutEntryMatches
  rw [if_neg differ, timeoutValueMatches_eq]

/-- **Entries that are expected alike are met for both planes or for neither.** -/
theorem EntryAlike.matches_eq {key : Bytes} {expected : Value}
    (alike : EntryAlike runtime context key expected) :
    timeoutEntryMatches context key expected = entryMatches runtime context key expected := by
  cases alike with
  | stream expected =>
    have isStream : contextValue context (Utf8.lit "stream") = .bool context.stream := by
      unfold contextValue
      rw [if_neg (by decide), if_neg (by decide), if_neg (by decide), if_pos rfl]
    have alone : aliases (Utf8.lit "stream") = [Utf8.lit "stream"] := by decide
    rw [timeoutEntryMatches, if_pos rfl, entryMatches, alone]
    simp [isStream, Value.isNull, valueMatches, scalarMatches, truthy, Bool.beq_comm]
  | @found _ _ text differ isLeaf alike isFound =>
    have present : expected.isNull = false := by
      cases expected <;> first | rfl | simp [leaves] at isLeaf
    have front : timeoutEntryMatches context key expected = true := by
      rw [timeoutEntryMatches_eq differ, List.any_eq_true]
      exact ⟨_, isLeaf, isFound⟩
    rw [front, entryMatches_eq present, eq_comm, List.any_eq_true]
    exact ⟨_, isLeaf, (alike.matches_eq differ).symm.trans isFound⟩
  | every differ present alike =>
    rw [entryMatches_eq present, timeoutEntryMatches_eq differ]
    rw [Bool.eq_iff_iff, List.any_eq_true, List.any_eq_true]
    exact exists_congr fun leaf => and_congr_right fun isLeaf => by
      rw [(alike leaf isLeaf).matches_eq differ]

end Entries

/-! ### Timeouts -/

/-- The timeouts of an object are non-negative integers. -/
def IntegerTimeouts (timeout : JsonMap) : Prop :=
  ∀ key ∈ timeoutKeys, ∀ value, timeout.get (Utf8.lit key) = some value →
    ∃ seconds, value = .number (.posInt seconds)

/-- A number of seconds in JSON. -/
def secondsValue (seconds : Nat) : Value := .number (.posInt seconds)

/-- The members that a function names are found where the function gives them. -/
theorem lookup_filterMap_keys (value : String → Option Nat) (keys : List String) {key : String}
    (known : key ∈ keys) :
    (keys.filterMap fun name => (value name).map fun seconds => (name, seconds)).lookup key =
      value key := by
  induction keys with
  | nil => cases known
  | cons name rest ih =>
    rw [List.filterMap_cons]
    by_cases same : key = name
    · subst same
      cases found : value key with
      | some seconds => simp
      | none =>
        change List.lookup key (rest.filterMap _) = none
        by_cases again : key ∈ rest
        · rw [ih again, found]
        · rw [List.lookup_eq_none_iff]
          intro entry isEntry
          obtain ⟨other, isOther, valued⟩ := List.mem_filterMap.mp isEntry
          obtain ⟨_, _, rfl⟩ := Option.map_eq_some_iff.mp valued
          simpa using fun equal : key = other => again (equal ▸ isOther)
    · have later := ih ((List.mem_cons.mp known).resolve_left same)
      cases value name with
      | none => exact later
      | some seconds =>
        change List.lookup key ((name, seconds) :: _) = _
        rw [List.lookup_cons, beq_false_of_ne same]
        exact later

/-- The seconds that the Python plane reads at a key. -/
def secondsAt (runtime : StreamRuntime) (timeout : JsonMap) (key : String) : Option Nat :=
  match (timeout.get (Utf8.lit key)).getD .null with
  | .null => none
  | value => (intOf runtime value).map Int.toNat

theorem normalizeTimeoutValues_object (runtime : StreamRuntime) (timeout : JsonMap) :
    normalizeTimeoutValues runtime (.object timeout) = timeoutKeys.filterMap fun key =>
      (secondsAt runtime timeout key).map fun seconds => (key, seconds) := by
  refine List.filterMap_congr fun key _ => ?_
  unfold secondsAt
  cases (JsonMap.get timeout (Utf8.lit key)).getD .null with
  | null => rfl
  | _ => exact (Option.map_map ..).symm

/-- **Integer timeouts are the same to both planes.** -/
theorem normalizeTimeoutValues_lookup (runtime : StreamRuntime) {timeout : JsonMap}
    (integer : IntegerTimeouts timeout) {key : String} (known : key ∈ timeoutKeys) :
    timeout.get (Utf8.lit key) =
      ((normalizeTimeoutValues runtime (.object timeout)).lookup key).map secondsValue := by
  rw [normalizeTimeoutValues_object, lookup_filterMap_keys _ _ known]
  unfold secondsAt
  cases found : timeout.get (Utf8.lit key) with
  | none => rfl
  | some value =>
    obtain ⟨seconds, rfl⟩ := integer key known value found
    rfl

/-! ### Rules -/

section Rules

variable (runtime : StreamRuntime) (context : Context)

/-- What the front makes of an item of the rules: the members of its condition and its timeouts. -/
def frontCandidate (item : Value) : Option (Nat × JsonMap) := do
  let rule ← item.asObject
  let condition ← (rule.get (Utf8.lit "match")).bind Value.asObject
  let timeout ← (rule.get (Utf8.lit "timeout")).bind Value.asObject
  if timeoutRuleMatches context condition then some (condition.length, timeout) else none

/-- What the Python plane makes of an item of the rules. -/
def pythonCandidate (item : Value) : Option (Nat × Timeouts) :=
  (normalizeRule runtime item).bind fun rule =>
    if ruleMatches runtime context rule.condition then some (score rule.condition, rule.timeout)
    else none

theorem foldl_bestTimeoutStep (items : List Value) (best : Option (Nat × JsonMap)) :
    (items.filterMap Value.asObject).foldl (bestTimeoutStep context) best =
      (items.filterMap (frontCandidate context)).foldl keepBest best := by
  induction items generalizing best with
  | nil => rfl
  | cons item rest ih =>
    rw [List.filterMap_cons, List.filterMap_cons]
    cases isRule : item.asObject with
    | none =>
      have skipped : frontCandidate context item = none := by
        unfold frontCandidate
        rw [isRule]
        rfl
      rw [skipped]
      exact ih best
    | some rule =>
      have stepped : bestTimeoutStep context best rule =
          (frontCandidate context item).elim best (keepBest best) := by
        unfold frontCandidate bestTimeoutStep keepBest
        simp only [isRule, Option.bind_eq_bind, Option.bind_some]
        cases (rule.get (Utf8.lit "match")).bind Value.asObject with
        | none => rfl
        | some condition =>
          cases (rule.get (Utf8.lit "timeout")).bind Value.asObject with
          | none => simp
          | some timeout => by_cases matched : timeoutRuleMatches context condition <;> simp [matched]
      rw [List.foldl_cons, stepped]
      cases frontCandidate context item with
      | none => exact ih best
      | some candidate => exact ih _

theorem foldl_bestStep (items : List Value) (best : Option (Nat × Timeouts)) :
    (items.filterMap (normalizeRule runtime)).foldl (bestStep runtime context) best =
      (items.filterMap (pythonCandidate runtime context)).foldl keepBest best := by
  induction items generalizing best with
  | nil => rfl
  | cons item rest ih =>
    rw [List.filterMap_cons, List.filterMap_cons]
    unfold pythonCandidate
    cases normalizeRule runtime item with
    | none => exact ih best
    | some rule =>
      have stepped : bestStep runtime context best rule =
          if ruleMatches runtime context rule.condition then
            keepBest best (score rule.condition, rule.timeout)
          else best := by
        unfold bestStep keepBest
        by_cases matched : ruleMatches runtime context rule.condition <;> simp [matched]
      rw [List.foldl_cons, stepped, Option.bind_some]
      split
      · exact ih _
      · exact ih best

/-- The timeouts that both planes have for a layer of the policies. -/
def SameTimeouts (front : JsonMap) (python : Timeouts) : Prop :=
  ∀ key ∈ timeoutKeys, front.get (Utf8.lit key) = (python.lookup key).map secondsValue

/-- **A rule is weighed alike by both planes**: its entries are expected alike, and its timeouts are in an
object with a supported key; or neither plane takes it. -/
inductive WeighedAlike : Value → Prop
  | plain {rule condition timeout key} :
    JsonMap.get rule (Utf8.lit "match") = some (.object condition) →
    JsonMap.get rule (Utf8.lit "timeout") = some (.object timeout) →
    key ∈ timeoutKeys → JsonMap.get timeout (Utf8.lit key) ≠ none →
    (∀ entry ∈ condition, EntryAlike runtime context entry.1 entry.2) → WeighedAlike (.object rule)
  | neither {item} : frontCandidate context item = none → pythonCandidate runtime context item = none →
    WeighedAlike item

/-- An item that loses against another one: the front takes the other one, and it goes before what
each plane makes of the item. -/
def IsBehind (items : List Value) (place : Nat) (item : Value) : Prop :=
  ∃ rival other found, items[rival]? = some other ∧ frontCandidate context other = some found ∧
    (∀ beaten, frontCandidate context item = some beaten → Before found.1 rival beaten.1 place) ∧
    ∀ beaten, pythonCandidate runtime context item = some beaten → Before found.1 rival beaten.1 place

variable {runtime context}

theorem sameTimeouts_nil : SameTimeouts [] [] := fun _ _ => rfl

theorem asObject_eq_some {value : Value} {members : JsonMap} :
    value.asObject = some members ↔ value = .object members := by
  cases value <;> simp [Value.asObject]

/-- What the front makes of a rule with its members. -/
theorem frontCandidate_object {rule condition timeout : JsonMap}
    (isCondition : rule.get (Utf8.lit "match") = some (.object condition))
    (isTimeout : rule.get (Utf8.lit "timeout") = some (.object timeout)) :
    frontCandidate context (.object rule) =
      if timeoutRuleMatches context condition then some (condition.length, timeout) else none := by
  simp only [frontCandidate, Value.asObject, isCondition, isTimeout, Option.bind_eq_bind, Option.bind_some]

theorem conditionOf_object {rule condition : JsonMap}
    (isCondition : rule.get (Utf8.lit "match") = some (.object condition)) :
    conditionOf rule = .object condition := by
  unfold conditionOf
  rw [isCondition, Option.getD_some]
  cases condition <;> rfl

/-- What the Python plane makes of a rule with its members. -/
theorem pythonCandidate_object {rule condition timeout : JsonMap}
    (isCondition : rule.get (Utf8.lit "match") = some (.object condition))
    (isTimeout : rule.get (Utf8.lit "timeout") = some (.object timeout))
    (present : normalizeTimeoutValues runtime (.object timeout) ≠ []) :
    pythonCandidate runtime context (.object rule) =
      if ruleMatches runtime context condition then
        some (score condition, normalizeTimeoutValues runtime (.object timeout))
      else none := by
  have normalized : normalizeRule runtime (.object rule) =
      some ⟨condition, normalizeTimeoutValues runtime (.object timeout)⟩ := by
    unfold normalizeRule
    simp [conditionOf_object isCondition, isTimeout, present]
  rw [pythonCandidate, normalized, Option.bind_some]

/-- An entry that is expected alike is not null. -/
theorem EntryAlike.isNull_eq_false {key : Bytes} {expected : Value}
    (alike : EntryAlike runtime context key expected) : expected.isNull = false := by
  cases alike with
  | stream => rfl
  | found _ isLeaf => cases expected <;> first | rfl | simp [leaves] at isLeaf
  | every _ present => exact present

/-- **Conditions that are expected alike** are met for both planes or for neither, with one score. -/
theorem condition_alike {condition : JsonMap}
    (alike : ∀ entry ∈ condition, EntryAlike runtime context entry.1 entry.2) :
    timeoutRuleMatches context condition = ruleMatches runtime context condition ∧
      condition.length = score condition := by
  constructor
  · rw [Bool.eq_iff_iff, timeoutRuleMatches, ruleMatches, List.all_eq_true, List.all_eq_true]
    exact forall₂_congr fun entry isEntry => by rw [(alike entry isEntry).matches_eq]
  · refine (List.countP_eq_length.mpr fun entry isEntry => ?_).symm
    simp [(alike entry isEntry).isNull_eq_false]

/-- **A rule that is weighed alike** is taken by both planes with one score and the same timeouts, or by
neither. -/
theorem candidate_alike {item : Value} (alike : WeighedAlike runtime context item)
    (integer : ∀ rule, item = .object rule → ∀ timeout,
      JsonMap.get rule (Utf8.lit "timeout") = some (.object timeout) → IntegerTimeouts timeout) :
    Option.Rel (ScoredAlike SameTimeouts) (frontCandidate context item)
      (pythonCandidate runtime context item) := by
  cases alike with
  | neither noFront noPython => rw [noFront, noPython]; exact .none
  | @plain rule condition timeout key isCondition isTimeout known present alike =>
    have same : SameTimeouts timeout (normalizeTimeoutValues runtime (.object timeout)) :=
      fun _ known => normalizeTimeoutValues_lookup runtime (integer rule rfl timeout isTimeout) known
    have nonempty : normalizeTimeoutValues runtime (.object timeout) ≠ [] := by
      intro empty
      have absent := same key known
      rw [empty] at absent
      exact present absent
    obtain ⟨matched, scored⟩ := condition_alike alike
    rw [frontCandidate_object isCondition isTimeout,
      pythonCandidate_object isCondition isTimeout nonempty, matched]
    split
    · exact .some ⟨scored, same⟩
    · exact .none

/-- **A rule with an entry that both planes refuse** is taken by neither, whatever its other entries are. -/
theorem WeighedAlike.ofEntry {rule condition : JsonMap} {entry : Bytes × Value}
    (isCondition : rule.get (Utf8.lit "match") = some (.object condition)) (isEntry : entry ∈ condition)
    (alike : EntryAlike runtime context entry.1 entry.2)
    (refused : timeoutEntryMatches context entry.1 entry.2 = false) :
    WeighedAlike runtime context (.object rule) := by
  have noFront : timeoutRuleMatches context condition = false :=
    List.all_eq_false.mpr ⟨entry, isEntry, by simp [refused]⟩
  have noPython : ruleMatches runtime context condition = false :=
    List.all_eq_false.mpr ⟨entry, isEntry, by simp [← alike.matches_eq, refused]⟩
  refine .neither ?_ ?_
  · simp only [frontCandidate, Value.asObject, isCondition, noFront, Option.bind_eq_bind, Option.bind_some]
    cases (JsonMap.get rule (Utf8.lit "timeout")).bind Value.asObject <;> rfl
  · simp only [pythonCandidate, normalizeRule, conditionOf_object isCondition]
    split
    · rfl
    · rw [Option.bind_some, noPython]
      rfl

end Rules

end UniApi.CrossPlane
