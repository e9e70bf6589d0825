/-
**The two planes on the overrides of a request body.**

Both planes merge sections of overrides alike. They differ in removals: the front reads a text as a
dotted path, does not trim where it looks up a path, compares numbers by their kind, and drops lists that
were empty before.

* `mergeSection_agree`: sections are merged alike;
* `applyRemoval_agree`: a plain removal does the same to the body;
* `overrides_agree`: the planes produce the same body.
-/

import UniApi.Lib.LineEndings
import UniApi.Providers.Overrides
import UniApi.Upstream.StreamEvents

namespace UniApi.CrossPlane

open UniApi.Lib UniApi.Upstream
open UniApi.Front (Value JsonMap Floats segments getParts modifyParts deleteParts equalValue sameValue
  removeKey trimText rawParts trimmedParts skipped removalItems)
open UniApi.Providers (stripText pathParts)

/-! ### Merging -/

mutual

/-- **One value** is merged alike. -/
theorem mergedValue_eq (current : Option Value) :
    ∀ value, Providers.mergedValue current value = Front.mergeValue (current.getD .null) value
  | .object override => by
    cases current with
    | none => rfl
    | some target =>
      cases target with
      | object members =>
        exact congrArg Value.object (mergeDict_eq members override)
      | null | bool | number | string | array => rfl
  | .null => rfl
  | .bool _ => rfl
  | .number _ => rfl
  | .string _ => rfl
  | .array _ => rfl

/-- The members of a dict are merged alike. -/
theorem mergeDict_eq (target : JsonMap) :
    ∀ override, Providers.mergePostBodyOverrideDict target override = Front.mergeMembers target override
  | [] => rfl
  | (key, value) :: rest => by
    rw [Providers.mergePostBodyOverrideDict, Front.mergeMembers, mergedValue_eq (target.get key) value,
      mergeDict_eq target rest, mergeDict_eq _ rest]

end

/-- **Sections** are merged alike. -/
theorem mergeSection_agree (models : List Bytes) (skipModelKeys : Bool) (payload override : JsonMap) :
    Providers.applyOverrideValues models skipModelKeys payload override =
      Front.mergeSection models skipModelKeys payload override := by
  induction override generalizing payload with
  | nil => rfl
  | cons entry rest ih =>
    obtain ⟨key, value⟩ := entry
    have skips : (key ∈ Providers.skipKeys ∨ key = removeKey ∨
        (skipModelKeys = true ∧ key ∈ models)) ↔
          (key = removeKey ∨ key ∈ skipped ∨ (skipModelKeys = true ∧ key ∈ models)) := or_left_comm
    rw [Providers.applyOverrideValues, Front.mergeSection, mergedValue_eq, ih, ih]
    exact if_congr skips rfl rfl

/-! ### Paths -/

theorem mem_pyText {text : Bytes} {byte : UInt8} (isByte : byte ∈ text) (ascii : byte.toNat < 0x80) :
    byte.toNat ∈ pyText text := by
  unfold pyText
  cases decoded : Utf8.decodeAll text with
  | none => exact List.mem_map_of_mem isByte
  | some points =>
    obtain ⟨letters, isEncoded, isPoints⟩ := Utf8.decodeAll_eq_some_iff.mp decoded
    rw [isEncoded] at isByte
    obtain ⟨letter, isLetter, inLetter⟩ := List.mem_flatMap.mp isByte
    rw [Option.getD_some, isPoints, ← (mem_encodeChar_ascii ascii).mp inLetter]
    exact List.mem_map_of_mem isLetter

theorem pathParts_of_blank {path : Bytes} (blank : stripText path = []) : pathParts path = [] := by
  have noDot : 46 ∉ path := by
    intro isDot
    have inText : 46 ∈ pyText path := mem_pyText isDot (by decide)
    have kept : 46 ∈ PyText.strip (pyText path) := PyText.mem_strip inText (by decide)
    unfold stripText at blank
    cases encoded : Utf8.encodePoints (PyText.strip (pyText path)) with
    | none =>
      rw [encoded, Option.getD_none] at blank
      rw [blank] at isDot
      cases isDot
    | some bytes =>
      rw [encoded, Option.getD_some] at blank
      obtain ⟨letters, isPoints, isEncoded⟩ := Utf8.encodePoints_eq_some_iff.mp encoded
      cases letters with
      | nil => rw [isPoints] at kept; cases kept
      | cons letter rest =>
        have some : 0 < (String.utf8EncodeChar letter).length := by
          rw [String.length_utf8EncodeChar]
          exact letter.utf8Size_pos
        rw [blank, Utf8.encode_cons] at isEncoded
        rw [(List.append_eq_nil_iff.mp isEncoded.symm).1] at some
        cases some
  rw [pathParts, segments, List.splitOn_eq_singleton noDot, List.map_singleton, blank]
  rfl

/-! ### Conditions -/

section Conditions

variable (floats : Floats)

/-- An entry of a condition is met in the front. -/
def entryMet (value : Value) (entry : Bytes × Value) : Bool :=
  (getParts value (rawParts entry.1)).any (sameValue · entry.2)

/-- An entry of a condition is met in Python. -/
def pyEntryMet (value : Value) (entry : Bytes × Value) : Bool :=
  (getParts value (pathParts entry.1)).any (equalValue floats · entry.2)

/-- An entry that is read alike: its path has no blanks around its parts, and it is compared with no value
that is equal in Python only. -/
def MemberAlike (value : Value) (entry : Bytes × Value) : Prop :=
  rawParts entry.1 = pathParts entry.1 ∧ ∀ actual, getParts value (pathParts entry.1) = some actual →
    equalValue floats actual entry.2 = true → sameValue actual entry.2 = true

/-- A condition that is read alike: all its entries are, or each plane finds one that is not met. -/
def ConditionAlike (value : Value) : Value → Prop
  | .object members => (∀ entry ∈ members, MemberAlike floats value entry) ∨
      ((∃ entry ∈ members, entryMet value entry = false) ∧
        ∃ entry ∈ members, pyEntryMet floats value entry = false)
  | .string text => equalValue floats value (.string text) = true →
      sameValue value (.string text) = true
  | _ => True

/-- Conditions of which one is to match are read alike: all are, or each plane finds one that matches. -/
def AnyConditionAlike (value : Value) : Value → Prop
  | .array conditions => (∀ condition ∈ conditions, ConditionAlike floats value condition) ∨
      ((∃ condition ∈ conditions, Front.matchesCondition value condition = true) ∧
        ∃ condition ∈ conditions, Providers.matchesCondition floats value condition = true)
  | other => ConditionAlike floats value other

/-- The conditions of a rule are read alike: both are, or one that is read alike is met. -/
def ConditionsAlike (rule : JsonMap) (value : Value) : Prop :=
  ((∀ condition, rule.get (Utf8.lit "where") = some condition → ConditionAlike floats value condition) ∧
      ∀ conditions, rule.get (Utf8.lit "where_any") = some conditions →
        AnyConditionAlike floats value conditions) ∨
    (∃ condition, rule.get (Utf8.lit "where") = some condition ∧
      ConditionAlike floats value condition ∧ Front.matchesCondition value condition = true) ∨
    ∃ conditions, rule.get (Utf8.lit "where_any") = some conditions ∧
      AnyConditionAlike floats value conditions ∧ Front.matchesAnyCondition value conditions = true

variable {floats}

theorem equalValue_eq_sameValue {first second : Value}
    (alike : equalValue floats first second = true → sameValue first second = true) :
    equalValue floats first second = sameValue first second :=
  Bool.eq_iff_iff.mpr ⟨alike, Front.equalValue_of_sameValue floats⟩

theorem entryMet_agree {value : Value} {entry : Bytes × Value} (alike : MemberAlike floats value entry) :
    pyEntryMet floats value entry = entryMet value entry := by
  obtain ⟨sameParts, noneLoose⟩ := alike
  rw [pyEntryMet, entryMet, sameParts]
  cases found : getParts value (pathParts entry.1) with
  | none => rfl
  | some actual =>
    rw [Option.any_some, Option.any_some, equalValue_eq_sameValue (noneLoose actual found)]

theorem matchesCondition_agree {value condition : Value}
    (alike : ConditionAlike floats value condition) :
    Providers.matchesCondition floats value condition = Front.matchesCondition value condition := by
  cases condition with
  | null | bool | number | array => rfl
  | string text => exact equalValue_eq_sameValue alike
  | object members =>
    change (members.all (pyEntryMet floats value)) = members.all (entryMet value)
    rcases alike with alike | ⟨⟨entry, isEntry, unmet⟩, ⟨entry', isEntry', unmet'⟩⟩
    · rw [Bool.eq_iff_iff, List.all_eq_true, List.all_eq_true]
      exact forall₂_congr fun entry isEntry => by rw [entryMet_agree (alike entry isEntry)]
    · rw [List.all_eq_false.mpr ⟨entry', isEntry', by simp [unmet']⟩,
        List.all_eq_false.mpr ⟨entry, isEntry, by simp [unmet]⟩]

theorem matchesAnyCondition_agree {value conditions : Value}
    (alike : AnyConditionAlike floats value conditions) :
    Providers.matchesAnyCondition floats value conditions =
      Front.matchesAnyCondition value conditions := by
  cases conditions with
  | null => exact @matchesCondition_agree floats value .null alike
  | bool other => exact @matchesCondition_agree floats value (.bool other) alike
  | number other => exact @matchesCondition_agree floats value (.number other) alike
  | string text => exact @matchesCondition_agree floats value (.string text) alike
  | object members => exact @matchesCondition_agree floats value (.object members) alike
  | array conditions =>
    rw [Providers.matchesAnyCondition, Front.matchesAnyCondition]
    rcases alike with alike | ⟨met, met'⟩
    · rw [Bool.eq_iff_iff, List.any_eq_true, List.any_eq_true]
      refine exists_congr fun condition => and_congr_right fun isCondition => ?_
      rw [matchesCondition_agree (alike condition isCondition)]
    · rw [List.any_eq_true.mpr met, List.any_eq_true.mpr met']

/-- **Conditions that are read alike** remove the same values. -/
theorem shouldRemove_agree {rule : JsonMap} {value : Value} (alike : ConditionsAlike floats rule value) :
    Providers.shouldRemove floats rule value = Front.shouldRemove rule value := by
  unfold Providers.shouldRemove Front.shouldRemove
  rcases alike with ⟨whereAlike, anyAlike⟩ | ⟨condition, isWhere, alike, met⟩ |
    ⟨conditions, isAny, alike, met⟩
  · congr 1
    · cases found : rule.get (Utf8.lit "where") with
      | none => rfl
      | some condition => exact matchesCondition_agree (whereAlike condition found)
    · cases found : rule.get (Utf8.lit "where_any") with
      | none => rfl
      | some conditions => exact matchesAnyCondition_agree (anyAlike conditions found)
  · rw [isWhere, Option.any_some, Option.any_some, matchesCondition_agree alike, met, Bool.true_or,
      Bool.true_or]
  · rw [isAny, Option.any_some, Option.any_some, matchesAnyCondition_agree alike, met, Bool.or_true,
      Bool.or_true]

end Conditions

/-! ### Removals -/

/-- A text that removes the same: neither plane finds anything to remove, or both remove one key. -/
def TextAlike (payload : JsonMap) (text : Bytes) : Prop :=
  ((text ∈ skipped ∨ trimmedParts text = [] ∨ getParts (.object payload) (trimmedParts text) = none) ∧
      (stripText text = [] ∨ stripText text ∈ skipped ∨ payload.get (stripText text) = none)) ∨
    (text ∉ skipped ∧ stripText text ∉ skipped ∧ trimmedParts text = [stripText text])

/-- A target that a rule changes alike: its conditions are read alike, and a list is not dropped because
it was empty before, or because `drop_empty` is true to Python only. -/
def TargetAlike (floats : Floats) (rule : JsonMap) : Value → Prop
  | .array items => (∀ item ∈ items, ConditionsAlike floats rule item) ∧
      (Front.dropsEmpty rule = true → items ≠ []) ∧
      (items ≠ [] → (∀ item ∈ items, Front.shouldRemove rule item = true) →
        truthy ((rule.get (Utf8.lit "drop_empty")).getD (.bool false)) = true →
          Front.dropsEmpty rule = true)
  | other => ConditionsAlike floats rule other

/-- The front leaves a body as it is: the path of the rule leads nowhere, or to what is not removed. -/
def FrontSpares (payload rule : JsonMap) (path : Bytes) : Prop :=
  if Front.hasConditions rule then
    match Front.getPathMut payload path with
    | none => True
    | some (.array items) => (∀ item ∈ items, Front.shouldRemove rule item = false) ∧
        (Front.dropsEmpty rule = true → items ≠ [])
    | some target => Front.shouldRemove rule target = false
  else trimmedParts path = [] ∨ getParts (.object payload) (trimmedParts path) = none

/-- The Python plane leaves a body as it is. -/
def PythonSpares (floats : Floats) (payload rule : JsonMap) (path : Bytes) : Prop :=
  stripText path = [] ∨
    match getParts (.object payload) (pathParts path) with
    | none => True
    | some (.array items) => Front.hasConditions rule = true ∧
        ∀ item ∈ items, Providers.shouldRemove floats rule item = false
    | some target => Front.hasConditions rule = true ∧ Providers.shouldRemove floats rule target = false

/-- A rule that removes the same: its path can be hashed, and it is left to the router, or neither plane
removes anything, or it has no blanks around its parts and leads to a target that is changed alike. -/
def RuleAlike (floats : Floats) (payload rule : JsonMap) : Prop :=
  match (rule.get (Utf8.lit "path")).getD .null with
  | .array _ => False
  | .object _ => False
  | .string path => path ∈ skipped ∨
      (FrontSpares payload rule path ∧ PythonSpares floats payload rule path) ∨
      (trimmedParts path = pathParts path ∧
        (Front.hasConditions rule = true → rawParts path = pathParts path ∧
          ∀ target, getParts (.object payload) (pathParts path) = some target →
            TargetAlike floats rule target))
  | _ => True

/-- **A removal that both planes apply alike** to a body. -/
def RemovalAlike (floats : Floats) (payload : JsonMap) : Value → Prop
  | .string text => TextAlike payload text
  | .object rule => RuleAlike floats payload rule
  | _ => True

section Removals

variable {floats : Floats}

/-- The removals that the Python plane makes of one item. -/
def normalizedItem : Value → Option Value
  | .string text => if (stripText text).isEmpty then none else some (.string (stripText text))
  | .object rule => some (.object rule)
  | _ => none

theorem normalizeRemovals_eq (removals : Value) :
    Providers.normalizeRemovals removals = (removalItems removals).filterMap normalizedItem := by
  cases removals with
  | null | bool | number | object => rfl
  | string text =>
    change (if (stripText text).isEmpty then [] else [Value.string (stripText text)]) =
      [Value.string text].filterMap normalizedItem
    rw [List.filterMap_cons, normalizedItem]
    cases (stripText text).isEmpty <;> rfl
  | array items =>
    rw [Providers.normalizeRemovals, removalItems]
    refine List.filterMap_congr fun item _ => ?_
    cases item <;> rfl

/-- One item in Python. -/
def pythonItem (floats : Floats) (payload : JsonMap) (item : Value) : Option JsonMap :=
  match normalizedItem item with
  | none => some payload
  | some removal => Providers.applyRemoval floats payload removal

theorem pythonItem_string (payload : JsonMap) (text : Bytes) :
    pythonItem floats payload (.string text) =
      some (if stripText text = [] ∨ stripText text ∈ skipped then payload
        else payload.erase (stripText text)) := by
  have item : normalizedItem (.string text) =
      if (stripText text).isEmpty then none else some (.string (stripText text)) := rfl
  rw [pythonItem, item]
  by_cases blank : stripText text = []
  · rw [if_pos (List.isEmpty_iff.mpr blank), if_pos (.inl blank)]
  · rw [if_neg (by simp [blank])]
    dsimp only
    rw [Providers.applyRemoval]
    exact congrArg some (if_congr (by simp [blank, Providers.skipKeys, skipped]) rfl rfl)

/-- **Texts** remove the same. -/
theorem pythonItem_text {payload : JsonMap} {text : Bytes} (alike : TextAlike payload text) :
    pythonItem floats payload (.string text) = some (Front.applyRemoval payload (.string text)) := by
  have front : Front.applyRemoval payload (.string text) =
      if text ∈ skipped then payload else deleteParts payload (trimmedParts text) := rfl
  rw [pythonItem_string, front, Option.some.injEq]
  rcases alike with ⟨frontSpares, pythonSpares⟩ | ⟨notSkipped, notSkipped', sameParts⟩
  · have front : (if text ∈ skipped then payload else deleteParts payload (trimmedParts text)) =
        payload := by
      rcases frontSpares with skips | empty | absent
      · rw [if_pos skips]
      · rw [empty, deleteParts, ite_self]
      · rw [Front.deleteParts_of_absent absent, ite_self]
    rw [front]
    rcases pythonSpares with blank | skips | absent
    · rw [if_pos (.inl blank)]
    · rw [if_pos (.inr skips)]
    · rw [Front.JsonMap.erase_of_absent absent, ite_self]
  · have nonempty : stripText text ≠ [] := by
      intro blank
      have isPart : stripText text ∈ trimmedParts text := by simp [sameParts]
      rw [blank] at isPart
      simpa using (List.mem_filter.mp isPart).2
    rw [if_neg (not_or.mpr ⟨nonempty, notSkipped'⟩), if_neg notSkipped, sameParts]
    rfl

theorem dropsEmpty_of_not_truthy {rule : JsonMap}
    (keeps : truthy ((rule.get (Utf8.lit "drop_empty")).getD (.bool false)) = false) :
    Front.dropsEmpty rule = false := by
  unfold Front.dropsEmpty
  split
  · rename_i value isBool
    rw [isBool] at keeps
    exact keeps
  · rfl

/-- What a rule with conditions does to its target. -/
theorem target_agree {payload rule : JsonMap} {path : Bytes} {target : Value}
    (sameParts : trimmedParts path = pathParts path)
    (found : getParts (.object payload) (pathParts path) = some target)
    (alike : TargetAlike floats rule target) :
    (match target with
      | .array items =>
        if (items.filter (!Providers.shouldRemove floats rule ·)).length = items.length then payload
        else if !(items.filter (!Providers.shouldRemove floats rule ·)).isEmpty ||
            !truthy ((rule.get (Utf8.lit "drop_empty")).getD (.bool false)) then
          Providers.setPath payload path (.array (items.filter (!Providers.shouldRemove floats rule ·)))
        else deleteParts payload (pathParts path)
      | target =>
        if Providers.shouldRemove floats rule target then deleteParts payload (pathParts path)
        else payload) =
      match some target with
      | none => payload
      | some (.array items) =>
        if (items.filter (!Front.shouldRemove rule ·)).isEmpty && Front.dropsEmpty rule then
          Front.deletePath (modifyParts (fun _ => .array (items.filter (!Front.shouldRemove rule ·)))
            payload (pathParts path)) path
        else modifyParts (fun _ => .array (items.filter (!Front.shouldRemove rule ·))) payload
          (pathParts path)
      | some target =>
        if Front.shouldRemove rule target then deleteParts payload (pathParts path) else payload := by
  cases target with
  | null | bool | number | string | object =>
    dsimp only
    rw [@shouldRemove_agree floats rule _ alike]
  | array items =>
    obtain ⟨conditions, notBefore, bothDrop⟩ := alike
    have sameKept : items.filter (!Providers.shouldRemove floats rule ·) =
        items.filter (!Front.shouldRemove rule ·) :=
      List.filter_congr fun item isItem => by rw [shouldRemove_agree (conditions item isItem)]
    dsimp only
    rw [sameKept, Providers.setPath, Front.deletePath, sameParts, Front.deleteParts_modifyParts]
    by_cases all : (items.filter (!Front.shouldRemove rule ·)).length = items.length
    · -- nothing is removed
      have unchanged := List.filter_sublist.eq_of_length all
      have stays := @Front.modifyParts_of_same _ _ _ found (fun _ => .array items) rfl
      rw [if_pos all, unchanged, stays]
      cases drops : Front.dropsEmpty rule with
      | false => rw [Bool.and_false, if_neg Bool.false_ne_true]
      | true =>
        rw [if_neg]
        rw [Bool.and_true, List.isEmpty_iff]
        exact notBefore drops
    · rw [if_neg all]
      cases empty : (items.filter (!Front.shouldRemove rule ·)).isEmpty with
      | false =>
        rw [Bool.not_false, Bool.true_or, if_pos rfl, Bool.false_and, if_neg Bool.false_ne_true]
      | true =>
        have nonempty : items ≠ [] := by
          rintro rfl
          exact all rfl
        have removed : ∀ item ∈ items, Front.shouldRemove rule item = true := by
          intro item isItem
          have gone := List.filter_eq_nil_iff.mp (List.isEmpty_iff.mp empty) item isItem
          simpa using gone
        rw [Bool.not_true, Bool.false_or, Bool.true_and]
        cases drops : truthy ((rule.get (Utf8.lit "drop_empty")).getD (.bool false)) with
        | true =>
          rw [bothDrop nonempty removed drops, Bool.not_true, if_neg Bool.false_ne_true, if_pos rfl]
        | false =>
          rw [dropsEmpty_of_not_truthy drops, Bool.not_false, if_pos rfl, if_neg Bool.false_ne_true]

theorem conditions_isNone (rule : JsonMap) :
    ((rule.get (Utf8.lit "where")).isNone && (rule.get (Utf8.lit "where_any")).isNone) =
      !Front.hasConditions rule := by
  unfold Front.hasConditions
  cases rule.get (Utf8.lit "where") <;> cases rule.get (Utf8.lit "where_any") <;> rfl

/-- **Rules** remove the same. -/
theorem structured_agree {payload rule : JsonMap} {path : Bytes}
    (isPath : rule.get (Utf8.lit "path") = some (.string path))
    (sameParts : trimmedParts path = pathParts path)
    (alike : Front.hasConditions rule = true → rawParts path = pathParts path ∧
      ∀ target, getParts (.object payload) (pathParts path) = some target →
        TargetAlike floats rule target) :
    Providers.applyStructuredRemoval floats payload rule = Front.applyStructuredRemoval payload rule := by
  have deletes : Front.deletePath payload path = deleteParts payload (pathParts path) := by
    rw [Front.deletePath, sameParts]
  unfold Providers.applyStructuredRemoval Front.applyStructuredRemoval
  rw [isPath, Option.bind_some, Value.asStr, conditions_isNone]
  dsimp only
  rw [Providers.getPath, Providers.deletePath, deletes]
  by_cases blank : (stripText path).isEmpty = true
  · rw [if_pos blank]
    have noParts := pathParts_of_blank (List.isEmpty_iff.mp blank)
    cases conditional : Front.hasConditions rule with
    | false =>
      rw [Bool.not_false, if_pos rfl, noParts]
      rfl
    | true =>
      rw [Bool.not_true, if_neg Bool.false_ne_true, Front.getPathMut, (alike conditional).1, noParts]
  · rw [if_neg blank]
    cases conditional : Front.hasConditions rule with
    | false =>
      rw [Bool.not_false, if_pos rfl]
      cases found : getParts (.object payload) (pathParts path) with
      | none => exact (Front.deleteParts_of_absent found).symm
      | some target =>
        dsimp only
        rw [if_pos rfl]
    | true =>
      obtain ⟨sameRaw, targetAlike⟩ := alike conditional
      rw [Bool.not_true, if_neg Bool.false_ne_true, Front.getPathMut, sameRaw]
      cases isParts : pathParts path with
      | nil =>
        rw [getParts]
        dsimp only
        rw [if_neg Bool.false_ne_true, deleteParts, ite_self]
      | cons part rest =>
        dsimp only
        rw [← isParts]
        cases found : getParts (.object payload) (pathParts path) with
        | none => rfl
        | some target =>
          dsimp only
          rw [if_neg Bool.false_ne_true]
          exact target_agree sameParts found (targetAlike target found)

/-- A rule that the front spares leaves the body. -/
theorem FrontSpares.applied {payload rule : JsonMap} {path : Bytes}
    (isPath : rule.get (Utf8.lit "path") = some (.string path)) (spares : FrontSpares payload rule path) :
    Front.applyStructuredRemoval payload rule = payload := by
  unfold FrontSpares at spares
  unfold Front.applyStructuredRemoval
  rw [isPath, Option.bind_some, Value.asStr]
  dsimp only
  cases conditional : Front.hasConditions rule with
  | false =>
    rw [conditional, if_neg Bool.false_ne_true] at spares
    rw [Bool.not_false, if_pos rfl, Front.deletePath]
    rcases spares with empty | absent
    · rw [empty, deleteParts]
    · exact Front.deleteParts_of_absent absent
  | true =>
    rw [conditional, if_pos rfl] at spares
    rw [Bool.not_true, if_neg Bool.false_ne_true]
    cases found : Front.getPathMut payload path with
    | none => rfl
    | some target =>
      rw [found] at spares
      cases target with
      | array items =>
        obtain ⟨stays, notBefore⟩ := spares
        have there : getParts (.object payload) (rawParts path) = some (.array items) := by
          unfold Front.getPathMut at found
          split at found
          · cases found
          · exact found
        have kept : items.filter (!Front.shouldRemove rule ·) = items :=
          List.filter_eq_self.mpr fun item isItem => by simp [stays item isItem]
        have same := @Front.modifyParts_of_same _ _ _ there (fun _ => .array items) rfl
        dsimp only
        rw [kept, same, if_neg]
        rw [Bool.and_eq_true, List.isEmpty_iff]
        exact fun ⟨empty, drops⟩ => notBefore drops empty
      | null | bool | number | string | object =>
        dsimp only at spares ⊢
        rw [spares, if_neg Bool.false_ne_true]

/-- A rule that the Python plane spares leaves the body. -/
theorem PythonSpares.applied {payload rule : JsonMap} {path : Bytes}
    (isPath : rule.get (Utf8.lit "path") = some (.string path))
    (spares : PythonSpares floats payload rule path) :
    Providers.applyStructuredRemoval floats payload rule = payload := by
  unfold Providers.applyStructuredRemoval
  rw [isPath, conditions_isNone]
  dsimp only
  rw [Providers.getPath]
  rcases spares with blank | spares
  · rw [blank]
    rfl
  · cases found : getParts (.object payload) (pathParts path) with
    | none => exact ite_self _
    | some target =>
      rw [found] at spares
      cases target with
      | array items =>
        obtain ⟨conditional, stays⟩ := spares
        have kept : items.filter (!Providers.shouldRemove floats rule ·) = items :=
          List.filter_eq_self.mpr fun item isItem => by simp [stays item isItem]
        dsimp only
        rw [conditional, Bool.not_true, if_neg Bool.false_ne_true, kept, if_pos rfl, ite_self]
      | null | bool | number | string | object =>
        obtain ⟨conditional, stays⟩ := spares
        dsimp only
        rw [conditional, Bool.not_true, if_neg Bool.false_ne_true, stays, if_neg Bool.false_ne_true,
          ite_self]

/-- **One removal** that is applied alike. -/
theorem applyRemoval_agree {payload : JsonMap} {item : Value} (alike : RemovalAlike floats payload item) :
    pythonItem floats payload item = some (Front.applyRemoval payload item) := by
  cases item with
  | null | bool | number | array => rfl
  | string text => exact pythonItem_text alike
  | object rule =>
    change Providers.applyRemoval floats payload (.object rule) = _
    rw [Providers.applyRemoval, Front.applyRemoval]
    change RuleAlike floats payload rule at alike
    unfold RuleAlike at alike
    have noPath : ∀ value, JsonMap.get rule (Utf8.lit "path") = value →
        value.bind Value.asStr = none → (∀ path, value ≠ some (.string path)) →
          Providers.applyStructuredRemoval floats payload rule =
            Front.applyStructuredRemoval payload rule := by
      intro value isValue noText noString
      unfold Providers.applyStructuredRemoval Front.applyStructuredRemoval
      rw [isValue, noText]
      cases value with
      | none => rfl
      | some value =>
        cases value with
        | string path => exact absurd rfl (noString path)
        | null | bool | number | array | object => rfl
    cases found : JsonMap.get rule (Utf8.lit "path") with
    | none =>
      rw [Option.getD_none, Option.bind_none, Option.any_none, if_neg Bool.false_ne_true]
      exact congrArg some (noPath none found rfl fun _ same => by cases same)
    | some value =>
      rw [found] at alike
      rw [Option.getD_some, Option.bind_some]
      cases value with
      | array items => cases alike
      | object members => cases alike
      | null | bool | number =>
        exact congrArg some (noPath _ found rfl fun _ same => by cases same)
      | string path =>
        dsimp only
        rw [Value.asStr, Option.any_some, Option.some.injEq]
        by_cases skip : path ∈ skipped
        · rw [if_pos (show path ∈ Providers.skipKeys from skip), if_pos (decide_eq_true skip)]
        · rw [if_neg (show ¬ path ∈ Providers.skipKeys from skip), if_neg (by simp [skip])]
          rcases alike.resolve_left skip with ⟨frontSpares, pythonSpares⟩ | ⟨sameParts, conditional⟩
          · rw [frontSpares.applied found, pythonSpares.applied found]
          · exact structured_agree found sameParts conditional

/-- Removals that are applied alike, each to the body that the ones in front have left. -/
def RemovalsAlike (floats : Floats) : JsonMap → List Value → Prop
  | _, [] => True
  | payload, item :: rest =>
    RemovalAlike floats payload item ∧ RemovalsAlike floats (Front.applyRemoval payload item) rest

/-- **A run of removals** leaves the same body. -/
theorem applyRemovals_agree {payload : JsonMap} {items : List Value}
    (alike : RemovalsAlike floats payload items) :
    (items.filterMap normalizedItem).foldlM (Providers.applyRemoval floats) payload =
      some (items.foldl Front.applyRemoval payload) := by
  induction items generalizing payload with
  | nil => rfl
  | cons item rest ih =>
    have first := applyRemoval_agree alike.1
    unfold pythonItem at first
    rw [List.filterMap_cons, List.foldl_cons]
    cases normal : normalizedItem item with
    | none =>
      rw [normal] at first
      rw [← Option.some.inj first]
      exact ih (Option.some.inj first ▸ alike.2)
    | some removal =>
      rw [normal] at first
      dsimp only at first ⊢
      rw [List.foldlM_cons, first]
      exact ih alike.2

end Removals

/-! ### Sections -/

section Sections

variable (floats : Floats)

/-- The removals of a section are applied alike, to the body that the section is merged into. -/
def SectionAlike (models : List Bytes) (skipModelKeys : Bool) (payload override : JsonMap) : Prop :=
  ∀ removals, override.get removeKey = some removals →
    RemovalsAlike floats (Front.mergeSection models skipModelKeys payload override)
      (removalItems removals)

/-- **Overrides that both planes apply alike**: the removals of the overrides, and those of the section
of the requested model behind them. -/
def OverridesAlike (payload : JsonMap) (models : List Bytes) (preferences : JsonMap)
    (requestModel : Bytes) : Prop :=
  ∀ overrides : JsonMap, preferences.get (Utf8.lit "post_body_parameter_overrides") = some (.object overrides) →
    SectionAlike floats models true payload overrides ∧
      ∀ model : JsonMap, overrides.get requestModel = some (.object model) →
        SectionAlike floats models false (Front.applyOverrideSection models true payload overrides) model

variable {floats}

/-- **One section** of overrides. -/
theorem applySection_agree {models : List Bytes} {skipModelKeys : Bool} {payload override : JsonMap}
    (alike : SectionAlike floats models skipModelKeys payload override) :
    Providers.applySection floats models skipModelKeys payload override =
      some (Front.applyOverrideSection models skipModelKeys payload override) := by
  rw [Providers.applySection, Providers.applyRemovals, mergeSection_agree, normalizeRemovals_eq]
  unfold Front.applyOverrideSection
  cases found : override.get removeKey with
  | none => rfl
  | some removals => exact applyRemovals_agree (alike removals found)

theorem follow_preferences (preferences : JsonMap) (key : String) :
    follow (.object [(Utf8.lit "preferences", .object preferences)]) ["preferences", key] =
      preferences.get (Utf8.lit key) := by
  have first : (Value.object [(Utf8.lit "preferences", .object preferences)]).get
      (Utf8.lit "preferences") = some (.object preferences) := by
    rw [Value.get, Value.asObject, Option.bind_some, JsonMap.get, List.lookup_cons_self]
  rw [follow, first, Option.bind_some, follow, Value.get, Value.asObject, Option.bind_some]
  cases preferences.get (Utf8.lit key) <;> rfl

/-- **Overrides agree** where their removals are applied alike. -/
theorem overrides_agree (safeGet : SafeGet) (payload : JsonMap) (models : List Bytes)
    (preferences : JsonMap) (requestModel : Bytes)
    (alike : OverridesAlike floats payload models preferences requestModel) :
    Providers.applyPostBodyParameterOverrides floats safeGet payload models preferences requestModel =
      some (Front.applyOverrides payload models preferences requestModel) := by
  unfold Providers.applyPostBodyParameterOverrides Front.applyOverrides
  dsimp only
  rw [safeGet.get_eq, follow_preferences]
  cases found : preferences.get (Utf8.lit "post_body_parameter_overrides") with
  | none => rfl
  | some value =>
    dsimp only
    have read : (if truthy (if truthy value || safeGet.keepsFalsy then value else .object []) then
        (if truthy value || safeGet.keepsFalsy then value else .object []) else .object []) =
          if truthy value then value else .object [] := by
      cases truth : truthy value with
      | true => rw [Bool.true_or, if_pos rfl, truth, if_pos rfl]
      | false =>
        cases safeGet.keepsFalsy with
        | true => rw [Bool.or_true, if_pos rfl, truth, if_neg Bool.false_ne_true]
        | false =>
          rw [Bool.or_false, if_neg Bool.false_ne_true]
          rfl
    rw [read, Option.bind_some]
    cases value with
    | null => rfl
    | bool value => cases value <;> rfl
    | number number => cases truthy (.number number) <;> rfl
    | string text => cases truthy (.string text) <;> rfl
    | array items => cases truthy (.array items) <;> rfl
    | object overrides =>
      have same : (if truthy (.object overrides) then Value.object overrides else .object []) =
          .object overrides := by
        cases overrides <;> rfl
      obtain ⟨firstAlike, modelAlike⟩ := alike overrides found
      rw [same, Value.asObject]
      dsimp only
      rw [applySection_agree firstAlike, Option.bind_eq_bind, Option.bind_some]
      cases isModel : JsonMap.get overrides requestModel with
      | none => rfl
      | some model =>
        cases model with
        | null | bool | number | string | array => rfl
        | object model => exact applySection_agree (modelAlike model isModel)

end Sections

/-! ### Two bodies -/

/-- Floats of which only zero is known to be whole. -/
def zeroFloats : Floats where
  whole text := if Front.isZeroFloat text then some 0 else none
  whole_zero _ zero := if_pos zero

/-- A body with a format and a tool. -/
def formatted : JsonMap :=
  [(Utf8.lit "input", .string (Utf8.lit "hi")), (Utf8.lit "response_format", .object []),
    (Utf8.lit "tools", .array [.object [(Utf8.lit "a", .number (.posInt 5))]])]

/-- A rule with a blank in a path that is not looked up. -/
def toolRule : JsonMap :=
  [(Utf8.lit "path", .string (Utf8.lit "tools")),
    (Utf8.lit "where", .object [(Utf8.lit "a", .number (.posInt 1)),
      (Utf8.lit "b ", .number (.posInt 2))])]

/-- Overrides with a text and a rule. -/
def formatOverrides : JsonMap :=
  [(removeKey, .array [.string (Utf8.lit "response_format"), .object toolRule]),
    (Utf8.lit "store", .bool false)]

/-- The preferences of a provider with them. -/
def formatPreferences : JsonMap :=
  [(Utf8.lit "post_body_parameter_overrides", .object formatOverrides)]

/-- The tool is not removed for its first member: the second one is not looked up. -/
theorem toolRule_alike (payload : JsonMap)
    (tools : getParts (.object payload) (pathParts (Utf8.lit "tools")) =
      some (.array [.object [(Utf8.lit "a", .number (.posInt 5))]])) :
    RuleAlike zeroFloats payload toolRule := by
  refine .inr (.inr ⟨by decide, fun _ => ⟨by decide, fun target found => ?_⟩⟩)
  rw [tools] at found
  obtain rfl := Option.some_injective _ found
  have noDrop : Front.dropsEmpty toolRule = false := rfl
  have noWhereAny : toolRule.get (Utf8.lit "where_any") = none := rfl
  refine ⟨fun item isItem => .inl ⟨fun condition isWhere => ?_, fun conditions isAny => ?_⟩, ?_, ?_⟩
  · obtain rfl := List.mem_singleton.mp isItem
    obtain rfl := Option.some_injective _ isWhere
    exact .inr ⟨⟨_, List.mem_cons_self, rfl⟩, ⟨_, List.mem_cons_self, rfl⟩⟩
  · rw [noWhereAny] at isAny
    cases isAny
  · rw [noDrop]
    exact fun drops => absurd drops Bool.false_ne_true
  · intro _ _ drops
    exact absurd drops Bool.false_ne_true

theorem formatted_alike :
    OverridesAlike zeroFloats formatted [] formatPreferences (Utf8.lit "gpt") := by
  intro overrides isOverrides
  have found : formatPreferences.get (Utf8.lit "post_body_parameter_overrides") =
      some (.object formatOverrides) := rfl
  rw [found] at isOverrides
  cases isOverrides
  refine ⟨fun removals isRemovals => ?_, fun model isModel => ?_⟩
  · have isList : formatOverrides.get removeKey =
        some (.array [.string (Utf8.lit "response_format"), .object toolRule]) := rfl
    rw [isList] at isRemovals
    cases isRemovals
    exact ⟨.inr ⟨by decide, by decide, by decide⟩, toolRule_alike _ rfl, trivial⟩
  · have absent : formatOverrides.get (Utf8.lit "gpt") = none := rfl
    rw [absent] at isModel
    cases isModel

/-- Both planes remove the format and keep the tool. -/
theorem overrides_agree_formatted :
    Providers.applyPostBodyParameterOverrides zeroFloats StreamRuntime.plain.safeGet formatted []
        formatPreferences (Utf8.lit "gpt") =
      some (Front.applyOverrides formatted [] formatPreferences (Utf8.lit "gpt")) ∧
      ((Front.applyOverrides formatted [] formatPreferences (Utf8.lit "gpt")).get
        (Utf8.lit "response_format")).isNone = true :=
  ⟨overrides_agree StreamRuntime.plain.safeGet formatted [] _ _ formatted_alike, by decide⟩

/-- The preferences of a provider with one removal. -/
def removing (removal : String) : JsonMap :=
  [(Utf8.lit "post_body_parameter_overrides", .object
    [(removeKey, .array [.string (Utf8.lit removal)]), (Utf8.lit "store", .bool false)])]

/-- A body with an effort inside. -/
def reasoned : JsonMap :=
  [(Utf8.lit "reasoning", .object [(Utf8.lit "effort", .string (Utf8.lit "high"))])]

/-- The effort of a body. -/
def effort (body : JsonMap) : Option Value :=
  getParts (.object body) [Utf8.lit "reasoning", Utf8.lit "effort"]

/-- **A dotted text** is a path to the front, which removes what it leads to, and one key to the Python
plane, which removes nothing. -/
theorem dotted_text_differs :
    (effort (Front.applyOverrides reasoned [] (removing "reasoning.effort")
        (Utf8.lit "gpt"))).isNone = true ∧
      ((Providers.applyPostBodyParameterOverrides zeroFloats StreamRuntime.plain.safeGet reasoned []
        (removing "reasoning.effort") (Utf8.lit "gpt")).bind effort).isSome = true :=
  ⟨by decide, by decide⟩

end UniApi.CrossPlane
