/-
**Paths into JSON objects, and changes along them.**

A path is a text with dots between the keys that it goes through. Both planes walk along paths and
change or delete what is at the end; they differ in how they read the text.

* `deleteParts_of_absent`, `modifyParts_of_same`: changes that leave an object as it is;
* `sameUpTo_mono`: values that are the same in Rust are equal in Python.
-/

import UniApi.Front.ItemIds
import UniApi.Upstream.ResponsesErrors

namespace UniApi.Front

open UniApi.Lib UniApi.Upstream

/-! ### Objects -/

namespace JsonMap

/-- `Map::remove`. -/
def erase (map : JsonMap) (key : Bytes) : JsonMap := map.filter (·.1 != key)

theorem get_insert_self (preferences : JsonMap) (key : Bytes) (value : Value) :
    (preferences.insert key value).get key = some value := by
  induction preferences with
  | nil => simp [insert, get]
  | cons entry rest ih =>
    obtain ⟨name, old⟩ := entry
    unfold insert
    split
    · simp [get]
    · rename_i other
      split
      · simp [get]
      · rw [get, List.lookup_cons, beq_false_of_ne other]
        exact ih

theorem get_insert_of_ne (preferences : JsonMap) {key other : Bytes} (differ : other ≠ key)
    (value : Value) : (preferences.insert key value).get other = preferences.get other := by
  induction preferences with
  | nil => simp [insert, get, differ]
  | cons entry rest ih =>
    obtain ⟨name, old⟩ := entry
    unfold insert
    split
    · rename_i same
      rw [get, get, List.lookup_cons, List.lookup_cons, ← same,
        beq_false_of_ne differ]
    · split
      · rw [get, List.lookup_cons, beq_false_of_ne differ]
        rfl
      · rw [get, get, List.lookup_cons, List.lookup_cons]
        cases other == name with
        | true => rfl
        | false => exact ih

theorem erase_of_absent {map : JsonMap} {key : Bytes} (absent : map.get key = none) :
    map.erase key = map := by
  refine List.filter_eq_self.mpr fun entry isEntry => ?_
  rw [get, List.lookup_eq_none_iff] at absent
  have differs := absent entry isEntry
  rw [bne_iff_ne] at differs ⊢
  exact differs.symm

theorem modify_of_absent {map : JsonMap} {key : Bytes} (absent : map.get key = none)
    (change : Value → Value) : map.modify key change = map := by
  induction map with
  | nil => rfl
  | cons entry rest ih =>
    obtain ⟨name, old⟩ := entry
    rw [get, List.lookup_cons] at absent
    unfold modify
    by_cases same : key = name
    · rw [beq_iff_eq.mpr same] at absent
      cases absent
    · rw [beq_false_of_ne same] at absent
      rw [if_neg same, ih absent]

theorem modify_of_same {map : JsonMap} {key : Bytes} {value : Value} (found : map.get key = some value)
    {change : Value → Value} (same : change value = value) : map.modify key change = map := by
  induction map with
  | nil => rfl
  | cons entry rest ih =>
    obtain ⟨name, old⟩ := entry
    rw [get, List.lookup_cons] at found
    unfold modify
    by_cases isName : key = name
    · rw [beq_iff_eq.mpr isName] at found
      cases found
      rw [if_pos isName, same]
    · rw [beq_false_of_ne isName] at found
      rw [if_neg isName, ih found]

theorem modify_modify (map : JsonMap) (key : Bytes) (first second : Value → Value) :
    (map.modify key first).modify key second = map.modify key (second ∘ first) := by
  induction map with
  | nil => rfl
  | cons entry rest ih =>
    obtain ⟨name, old⟩ := entry
    by_cases isName : key = name
    · rw [modify, if_pos isName, modify, if_pos isName, modify, if_pos isName]
      rfl
    · rw [modify, if_neg isName, modify, if_neg isName, modify, if_neg isName, ih]

theorem erase_modify (map : JsonMap) (key : Bytes) (change : Value → Value) :
    (map.modify key change).erase key = map.erase key := by
  induction map with
  | nil => rfl
  | cons entry rest ih =>
    obtain ⟨name, old⟩ := entry
    unfold erase at ih ⊢
    by_cases isName : key = name
    · rw [modify, if_pos isName, List.filter_cons_of_neg (by simp [isName]),
        List.filter_cons_of_neg (by simp [isName])]
    · rw [modify, if_neg isName, List.filter_cons, List.filter_cons, ih]

end JsonMap

/-! ### Walking -/

/-- `path.split('.')`. -/
def segments (path : Bytes) : List Bytes := path.splitOn 46

/-- The value at the end of a path. -/
def getParts : Value → List Bytes → Option Value
  | value, [] => some value
  | value, part :: parts => (value.get part).bind (getParts · parts)

/-- The value at the end of a path is changed in its place. -/
def modifyParts (change : Value → Value) : JsonMap → List Bytes → JsonMap
  | root, [] => root
  | root, [last] => root.modify last change
  | root, part :: parts =>
    root.modify part fun value =>
      match value with
      | .object next => .object (modifyParts change next parts)
      | other => other

/-- The key at the end of a path is removed. -/
def deleteParts : JsonMap → List Bytes → JsonMap
  | root, [] => root
  | root, [last] => root.erase last
  | root, part :: parts =>
    root.modify part fun value =>
      match value with
      | .object next => .object (deleteParts next parts)
      | other => other

theorem getParts_cons (root : JsonMap) (part : Bytes) (parts : List Bytes) :
    getParts (.object root) (part :: parts) = (root.get part).bind (getParts · parts) := by
  rw [getParts, Value.get, Value.asObject, Option.bind_some]

theorem deleteParts_of_absent {root : JsonMap} {parts : List Bytes}
    (absent : getParts (.object root) parts = none) : deleteParts root parts = root := by
  induction parts generalizing root with
  | nil => cases absent
  | cons part rest ih =>
    rw [getParts_cons] at absent
    cases found : root.get part with
    | none =>
      cases rest with
      | nil => exact JsonMap.erase_of_absent found
      | cons next others => exact JsonMap.modify_of_absent found _
    | some value =>
      rw [found, Option.bind_some] at absent
      cases rest with
      | nil => cases absent
      | cons next others =>
        refine JsonMap.modify_of_same found ?_
        cases value with
        | object members => exact congrArg Value.object (ih absent)
        | null | bool | number | string | array => rfl

theorem modifyParts_of_same {root : JsonMap} {parts : List Bytes} {value : Value}
    (found : getParts (.object root) parts = some value) {change : Value → Value}
    (same : change value = value) : modifyParts change root parts = root := by
  induction parts generalizing root with
  | nil => rfl
  | cons part rest ih =>
    rw [getParts_cons] at found
    obtain ⟨next, isNext, behind⟩ := Option.bind_eq_some_iff.mp found
    cases rest with
    | nil =>
      cases behind
      exact JsonMap.modify_of_same isNext same
    | cons following others =>
      refine JsonMap.modify_of_same isNext ?_
      cases next with
      | object members => exact congrArg Value.object (ih behind)
      | null | bool | number | string | array => rfl

theorem deleteParts_modifyParts (change : Value → Value) (root : JsonMap) (parts : List Bytes) :
    deleteParts (modifyParts change root parts) parts = deleteParts root parts := by
  induction parts generalizing root with
  | nil => rfl
  | cons part rest ih =>
    cases rest with
    | nil => exact JsonMap.erase_modify root part change
    | cons next others =>
      change ((root.modify part _).modify part _) = root.modify part _
      rw [JsonMap.modify_modify]
      congr 1
      funext value
      cases value with
      | object members => exact congrArg Value.object (ih members)
      | null | bool | number | string | array => rfl

/-! ### Equality -/

mutual

/-- Values are the same, where `leaf` compares those that are not both arrays or both objects. -/
def sameUpTo (leaf : Value → Value → Bool) : Value → Value → Bool
  | .array first, .array second => sameItems leaf first second
  | .object first, .object second => sameMembers leaf first second
  | first, second => leaf first second

/-- Arrays are the same. -/
def sameItems (leaf : Value → Value → Bool) : List Value → List Value → Bool
  | [], [] => true
  | first :: firsts, second :: seconds => sameUpTo leaf first second && sameItems leaf firsts seconds
  | _, _ => false

/-- Objects, in the order of their keys, are the same. -/
def sameMembers (leaf : Value → Value → Bool) : JsonMap → JsonMap → Bool
  | [], [] => true
  | (name, first) :: firsts, (key, second) :: seconds =>
    name == key && sameUpTo leaf first second && sameMembers leaf firsts seconds
  | _, _ => false

end

/-- The text of a float that is zero. -/
def isZeroFloat (text : Bytes) : Bool := !truthy (.number (.float text))

/-- `==` of numbers in Rust. -/
def sameNumber : JsonNumber → JsonNumber → Bool
  | .posInt first, .posInt second => first == second
  | .negInt first, .negInt second => first == second
  | .float first, .float second => first == second || (isZeroFloat first && isZeroFloat second)
  | _, _ => false

/-- `==` of the other values in Rust. -/
def sameLeaf : Value → Value → Bool
  | .null, .null => true
  | .bool first, .bool second => first == second
  | .number first, .number second => sameNumber first second
  | .string first, .string second => first == second
  | _, _ => false

/-- `==` of values in Rust. -/
def sameValue : Value → Value → Bool := sameUpTo sameLeaf

/-- Floats in Python: which of them are whole numbers. -/
structure Floats where
  whole : Bytes → Option Int
  whole_zero : ∀ text, isZeroFloat text = true → whole text = some 0

/-- The whole number that a value is equal to in Python. -/
def wholeNumber (floats : Floats) : Value → Option Int
  | .bool value => some (if value then 1 else 0)
  | .number (.posInt value) => some value
  | .number (.negInt value) => some value
  | .number (.float text) => floats.whole text
  | _ => none

/-- `==` of the other values in Python. -/
def equalLeaf (floats : Floats) (first second : Value) : Bool :=
  match wholeNumber floats first, wholeNumber floats second with
  | some first, some second => first == second
  | _, _ => sameLeaf first second

/-- `==` of values in Python. -/
def equalValue (floats : Floats) : Value → Value → Bool := sameUpTo (equalLeaf floats)

mutual

theorem sameUpTo_mono {strict loose : Value → Value → Bool}
    (wider : ∀ first second, strict first second = true → loose first second = true) :
    ∀ first second, sameUpTo strict first second = true → sameUpTo loose first second = true
  | .array first, second, same => by
    cases second with
    | array second => exact sameItems_mono wider first second same
    | null | bool | number | string | object => exact wider _ _ same
  | .object first, second, same => by
    cases second with
    | object second => exact sameMembers_mono wider first second same
    | null | bool | number | string | array => exact wider _ _ same
  | .null, _, same => wider _ _ same
  | .bool _, _, same => wider _ _ same
  | .number _, _, same => wider _ _ same
  | .string _, _, same => wider _ _ same

theorem sameItems_mono {strict loose : Value → Value → Bool}
    (wider : ∀ first second, strict first second = true → loose first second = true) :
    ∀ first second, sameItems strict first second = true → sameItems loose first second = true
  | [], [], _ => rfl
  | first :: firsts, second :: seconds, same => by
    rw [sameItems, Bool.and_eq_true] at same ⊢
    exact ⟨sameUpTo_mono wider first second same.1, sameItems_mono wider firsts seconds same.2⟩
  | [], _ :: _, same => by cases same
  | _ :: _, [], same => by cases same

theorem sameMembers_mono {strict loose : Value → Value → Bool}
    (wider : ∀ first second, strict first second = true → loose first second = true) :
    ∀ first second, sameMembers strict first second = true → sameMembers loose first second = true
  | [], [], _ => rfl
  | (name, first) :: firsts, (key, second) :: seconds, same => by
    rw [sameMembers, Bool.and_eq_true, Bool.and_eq_true] at same ⊢
    exact ⟨⟨same.1.1, sameUpTo_mono wider first second same.1.2⟩,
      sameMembers_mono wider firsts seconds same.2⟩
  | [], _ :: _, same => by cases same
  | _ :: _, [], same => by cases same

end

/-- Numbers that are the same in Rust are the same whole numbers in Python. -/
theorem sameNumber_whole (floats : Floats) {first second : JsonNumber}
    (same : sameNumber first second = true) :
    wholeNumber floats (.number first) = wholeNumber floats (.number second) := by
  cases first <;> cases second <;> simp only [sameNumber, beq_iff_eq, Bool.or_eq_true,
    Bool.and_eq_true, Bool.false_eq_true] at same
  · rw [same]
  · rw [same]
  · rcases same with same | ⟨first, second⟩
    · rw [same]
    · rw [wholeNumber, wholeNumber, floats.whole_zero _ first, floats.whole_zero _ second]

/-- **Values that are the same in Rust** are equal in Python. -/
theorem equalValue_of_sameValue (floats : Floats) {first second : Value}
    (same : sameValue first second = true) : equalValue floats first second = true := by
  refine sameUpTo_mono (fun first second same => ?_) first second same
  unfold equalLeaf
  cases first with
  | null | string | array | object => exact same
  | bool first =>
    cases second with
    | bool second =>
      rw [sameLeaf, beq_iff_eq] at same
      rw [same]
      exact beq_self_eq_true _
    | null | number | string | array | object => exact absurd same Bool.false_ne_true
  | number first =>
    cases second with
    | number second =>
      rw [sameNumber_whole floats same]
      cases wholeNumber floats (.number second) with
      | none => exact same
      | some value => exact beq_self_eq_true _
    | null | bool | string | array | object => exact absurd same Bool.false_ne_true

end UniApi.Front
